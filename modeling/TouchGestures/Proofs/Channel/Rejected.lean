import TouchGestures.Proofs.Channel.Diary
import TouchGestures.Proofs.Channel.InPlace
import TouchGestures.Proofs.Channel.Standing

namespace TouchGestures.Channel

inductive Reply
  | touched (result : TouchResult)
  | given (gestures : List Gesture)
  | done
  deriving DecidableEq

def respond (c : Channel) : Call → Except Violation (Reply × Channel)
  | .event (.touch t) => (c.touch t).map fun (result, d) => (.touched result, d)
  | .event (.tick now) => (c.tick now).map fun (gestures, d) => (.given gestures, d)
  | .event .drain => .ok (.given c.drain.1, c.drain.2)
  | a => (c.call a).map fun d => (.done, d)

def Reply.rejects : Reply → Bool
  | .touched result => !result.accepted
  | .given _ | .done => false

-- What comes of some calls, each with the channel as it is then. A violation leaves it as it
-- was, and the next call is made.
def replies (c : Channel) : List Call → List (Except Violation (Reply × Channel))
  | [] => []
  | a :: rest =>
    match c.respond a with
    | .error violation => .error violation :: c.replies rest
    | .ok (reply, d) => .ok (reply, d) :: d.replies rest

def unrejected (c : Channel) : List Call → List Call
  | [] => []
  | a :: rest =>
    match c.respond a with
    | .error _ => a :: c.unrejected rest
    | .ok (reply, d) => if reply.rejects then d.unrejected rest else a :: d.unrejected rest

variable {c d : Channel} {a : Call} {reply : Reply}

theorem call_eq_respond (c : Channel) (a : Call) : c.call a = (c.respond a).map (·.2) := by
  cases a with
  | event e =>
    cases e with
    | touch | tick => simp only [call, respond, step, map_map]
    | drain => rfl
    | ack | configure | setDoubleTap | reassign | forgetHistory =>
      simp only [respond, map_map]
      exact (congrFun Except.map_id _).symm
  | enter contact now id =>
    simp only [respond, map_map]
    exact (congrFun Except.map_id _).symm

-- Nothing but a touch is turned down.
theorem touch_of_rejects (h : c.respond a = .ok (reply, d)) (hrejects : reply.rejects = true) :
    ∃ t result, c.touch t = .ok (result, d) ∧ result.accepted = false := by
  cases a with
  | event e =>
    cases e with
    | touch t =>
      obtain ⟨⟨result, after⟩, htouch, heq⟩ := map_eq_ok.mp h
      cases heq
      exact ⟨t, result, htouch, by simpa [Reply.rejects] using hrejects⟩
    | drain =>
      cases h
      cases hrejects
    | tick | ack | configure | setDoubleTap | reassign | forgetHistory =>
      simp only [respond, map_eq_ok] at h
      obtain ⟨after, -, heq⟩ := h
      cases heq
      cases hrejects
  | enter contact now id =>
    simp only [respond, map_eq_ok] at h
    obtain ⟨after, -, heq⟩ := h
    cases heq
    cases hrejects

namespace Diary

variable {y : Diary}

theorem Kept.respond (h : Kept y) (hrespond : y.channel.respond a = .ok (reply, d)) :
    ∃ y', Kept y' ∧ y'.channel = d := by
  have hcall : y.channel.call a = .ok d := by rw [call_eq_respond, hrespond, ok_map]
  exact ⟨_, h.step (map_eq_ok.mpr ⟨d, hcall, rfl⟩), rfl⟩

theorem Kept.channel_of_rejected {t : Touch} {result : TouchResult} (h : Kept y)
    (htouch : y.channel.touch t = .ok (result, d)) (hrejected : result.accepted = false) :
    d = y.channel := by
  obtain ⟨k, hk, hchannel⟩ := h.lived
  rw [← hchannel] at htouch ⊢
  exact eq_of_rejected hk.sound.head hk.sound.settled htouch hrejected

-- Without the touches that are turned down, a run comes to the same otherwise.
theorem Kept.replies_unrejected (h : Kept y) (calls : List Call) :
    y.channel.replies (y.channel.unrejected calls) =
      (y.channel.replies calls).filter fun reply => !reply.toOption.any (·.1.rejects) := by
  induction calls generalizing y with
  | nil => rfl
  | cons a rest ih =>
    cases hrespond : y.channel.respond a with
    | error violation => simp [unrejected, replies, hrespond, Except.toOption, ih h]
    | ok result =>
      obtain ⟨reply, d⟩ := result
      obtain ⟨y', hy', rfl⟩ := h.respond hrespond
      have hrest := ih hy'
      by_cases hrejects : reply.rejects = true
      · obtain ⟨t, result, htouch, hrejected⟩ := touch_of_rejects hrespond hrejects
        have hsame := h.channel_of_rejected htouch hrejected
        rw [hsame] at hrest
        simp [unrejected, replies, hrespond, hrejects, Except.toOption, hsame, hrest]
      · simp [unrejected, replies, hrespond, hrejects, Except.toOption, hrest]

-- Every touch gets an answer, also from a channel that is changed in place. One that is turned
-- down leaves the whole channel as it is, so no later answer is another without it.
theorem Kept.rejected_leaves_unchanged (h : Kept y) (t : Touch) (calls : List Call) :
    (∃ result d, y.channel.touch t = .ok (result, d) ∧
      (touchInPlace t).run y.channel = .ok result d ∧
      (result.accepted = false → d = y.channel)) ∧
    y.channel.replies (y.channel.unrejected calls) =
      (y.channel.replies calls).filter fun reply => !reply.toOption.any (·.1.rejects) := by
  obtain ⟨k, hk, hchannel⟩ := h.lived
  obtain ⟨result, d, htouch⟩ := Chronicle.exists_touch hk.sound t
  rw [hchannel] at htouch
  exact ⟨⟨result, d, htouch, run_touchInPlace htouch, h.channel_of_rejected htouch⟩,
    h.replies_unrejected calls⟩

-- With two fingers down: a move of a third one, a move that is too old, a move, verdicts on a
-- touch that awaits one and on one that does not, and another release of a finger that is up.
def strays : List Call :=
  [.event (.touch (finger .moved 3 50 20 3)), .event (.touch (finger .moved 1 20 5 4)),
    .event (.touch (finger .moved 1 60 20 5)), .event (.ack 1 false false),
    .event (.ack 9 false false), .event (.touch (finger .released 1 60 30 6)),
    .event (.touch (finger .released 1 60 30 7))]

-- The table takes the move that is too old, and detection turns it down.
theorem rejected_leaves_unchanged_of_bothDown :
    Kept (ofCalls {} bothDown) ∧
    ((ofCalls {} bothDown).channel.contacts.touch (finger .moved 1 20 5 4)).1 = true ∧
    (∃ result, (touchInPlace (finger .moved 1 20 5 4)).run (ofCalls {} bothDown).channel =
      .ok result (ofCalls {} bothDown).channel ∧ result.accepted = false) ∧
    (ofCalls {} bothDown).channel.replies
        [.event (.touch (finger .moved 1 60 20 5)), .event (.ack 1 false false),
          .event (.ack 9 false false), .event (.touch (finger .released 1 60 30 6))] =
      ((ofCalls {} bothDown).channel.replies strays).filter
        fun reply => !reply.toOption.any (·.1.rejects) := by
  have hkept := kept_ofCalls {} bothDown
  obtain ⟨⟨result, d, htouch, hrun, hsame⟩, hreplies⟩ :=
    hkept.rejected_leaves_unchanged (finger .moved 1 20 5 4) strays
  have hanswer : ((ofCalls {} bothDown).channel.touch (finger .moved 1 20 5 4)).toOption.map
      (·.1.accepted) = some false := by
    decide +kernel
  rw [htouch] at hanswer
  have hrejected : result.accepted = false := Option.some.inj hanswer
  rw [hsame hrejected] at hrun
  have hcalls : (ofCalls {} bothDown).channel.unrejected strays =
      [.event (.touch (finger .moved 1 60 20 5)), .event (.ack 1 false false),
        .event (.ack 9 false false), .event (.touch (finger .released 1 60 30 6))] := by
    decide +kernel
  rw [hcalls] at hreplies
  exact ⟨hkept, by decide +kernel, ⟨result, hrun, hrejected⟩, hreplies⟩

end Diary

end TouchGestures.Channel
