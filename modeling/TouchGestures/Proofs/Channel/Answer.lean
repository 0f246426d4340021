import TouchGestures.Proofs.Channel.Soundness

namespace TouchGestures

-- Touches made up for some contacts, one for each, with numbers of their own. The clock
-- is read for each of them.
def synthesizeAll (kind : Touch.Kind) (clock : Clock) :
    List Contact → EventIds → List Touch × EventIds
  | [], ids => ([], ids)
  | c :: rest, ids =>
    let (id, ids) := ids.fresh
    let (touches, ids) := synthesizeAll kind clock.rest rest ids
    (c.synthesize kind clock.now id :: touches, ids)

theorem kind_of_mem_synthesizeAll {kind : Touch.Kind} {clock : Clock} {contacts : List Contact}
    {ids : EventIds} {t : Touch} (ht : t ∈ (synthesizeAll kind clock contacts ids).1) :
    t.kind = kind := by
  induction contacts generalizing clock ids with
  | nil => cases ht
  | cons c rest ih =>
    rcases List.mem_cons.mp ht with rfl | ht
    · rfl
    · exact ih ht

theorem ContactTable.cancels_eq (t : ContactTable) (now : Time) (ids : EventIds) :
    t.cancels now ids = synthesizeAll .cancelled (.still now) t.live ids := by
  unfold cancels
  generalize t.live = contacts
  induction contacts generalizing ids with
  | nil => rfl
  | cons c rest ih => simp [cancels.go, synthesizeAll, ih]

namespace Channel

namespace Chronicle

variable {k k' : Chronicle} {e : Event}

-- Lets something happen, or nothing if it cannot.
def next (k : Chronicle) (e : Event) : Chronicle :=
  match k.step e with
  | .ok k => k
  | .error _ => k

def accepts (k : Chronicle) (t : Touch) : Bool :=
  match k.channel.touch t with
  | .ok (result, _) => result.accepted
  | .error _ => false

def answer (k : Chronicle) (t : Touch) (consumed : Bool) : Chronicle :=
  if k.accepts t then (k.next (.touch t)).next (.ack t.id consumed false)
  else k.next (.touch t)

-- Takes in a made up touch, and takes out what it releases.
def inject (k : Chronicle) (handles : Touch → Bool) (t : Touch) : Chronicle :=
  if k.accepts t then (k.answer t (handles t)).next .drain else k.answer t (handles t)

-- Starts over with some presses, which the consumer is said to have handled.
def reenter (k : Chronicle) (presses : List Touch) : Chronicle :=
  (presses.foldl (fun k t => k.answer t true) (k.next .forgetHistory)).next .drain

theorem next_of_step {gestures : List Gesture} {channel : Channel}
    (h : k.channel.step e = .ok (gestures, channel)) :
    k.next e = ⟨channel, k.queued ++ k.channel.queuedBy e, k.items ++ k.channel.itemsBy e,
      k.released ++ gestures⟩ := by
  simp [next, step, h, Except.map]

theorem next_of_touch {t : Touch} {result : TouchResult} {channel : Channel} (h : k.Sound)
    (htouch : k.channel.touch t = .ok (result, channel)) :
    (k.next (.touch t)).channel = channel ∧ channel.released = k.channel.released ∧
      (k.next (.touch t)).released = k.released := by
  have hreleased : channel.released = k.channel.released := by
    obtain ⟨-, -, rfl | rfl⟩ | ⟨_, _, _, _, -, -, -, -, -, rfl⟩ := touch_cases h.head htouch <;> rfl
  have hstep : k.channel.step (.touch t) = .ok ([], channel) := by
    simp [Channel.step, htouch, hreleased, Except.map]
  rw [next_of_step hstep]
  exact ⟨rfl, hreleased, List.append_nil _⟩

theorem next_of_ack {id : EventId} {consumed nonBlocking : Bool} {channel : Channel}
    (hack : k.channel.ack id consumed nonBlocking = .ok channel) :
    (k.next (.ack id consumed nonBlocking)).channel = channel ∧
      (k.next (.ack id consumed nonBlocking)).released =
        k.released ++ channel.released.drop k.channel.released.length := by
  have hstep : k.channel.step (.ack id consumed nonBlocking) =
      .ok (channel.released.drop k.channel.released.length, channel) := by
    simp [Channel.step, hack, Except.map]
  rw [next_of_step hstep]
  exact ⟨rfl, rfl⟩

theorem next_drain (k : Chronicle) :
    (k.next .drain).channel = k.channel.drain.2 ∧ (k.next .drain).released = k.released := by
  rw [next_of_step (k := k) (e := .drain) rfl]
  exact ⟨rfl, List.append_nil _⟩

theorem next_of_tick {now : Time} {gestures : List Gesture} {channel : Channel}
    (htick : k.channel.tick now = .ok (gestures, channel)) :
    (k.next (.tick now)).channel = channel ∧ channel.released = k.channel.released ∧
      (k.next (.tick now)).released = k.released ++ gestures := by
  have hreleased : channel.released = k.channel.released := by
    rw [tick_eq, Except.ok.injEq] at htick
    exact (congrArg (fun result => result.2.released) htick).symm
  rw [next_of_step (e := .tick now) htick]
  exact ⟨rfl, hreleased, rfl⟩

end Chronicle

section Lived

variable {allowed : Event → Prop} {k : Chronicle}

theorem Lived.next (h : Lived (fun _ => True) k) (e : Event) :
    Lived (fun _ => True) (k.next e) := by
  unfold Chronicle.next
  split
  · next k' hk => exact h.step trivial hk
  · exact h

theorem Lived.answer (h : Lived (fun _ => True) k) (t : Touch) (consumed : Bool) :
    Lived (fun _ => True) (k.answer t consumed) := by
  unfold Chronicle.answer
  split
  · exact (h.next _).next _
  · exact h.next _

theorem Lived.inject (h : Lived (fun _ => True) k) (handles : Touch → Bool) (t : Touch) :
    Lived (fun _ => True) (k.inject handles t) := by
  unfold Chronicle.inject
  split
  · exact (h.answer _ _).next _
  · exact h.answer _ _

theorem Lived.injectAll (h : Lived (fun _ => True) k) (handles : Touch → Bool)
    (touches : List Touch) : Lived (fun _ => True) (touches.foldl (·.inject handles) k) := by
  induction touches generalizing k with
  | nil => exact h
  | cons t rest ih => exact ih (h.inject handles t)

theorem Lived.reenter (h : Lived (fun _ => True) k) (presses : List Touch) :
    Lived (fun _ => True) (k.reenter presses) := by
  refine Lived.next ?_ _
  have hforgotten := h.next .forgetHistory
  generalize k.next .forgetHistory = k at hforgotten
  induction presses generalizing k with
  | nil => exact hforgotten
  | cons t rest ih => exact ih _ (hforgotten.answer t true)

end Lived

end Channel

end TouchGestures
