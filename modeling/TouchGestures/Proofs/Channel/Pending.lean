import TouchGestures.Proofs.Channel.Answer

namespace TouchGestures

open Release (Queue)

namespace Release.Queue

variable {q : Queue} {p : Packet} {id : EventId}

def pendingIds (q : Queue) : List EventId := (q.packets.filter Packet.isPending).map (·.eventId)

theorem ack_of_isPending (hp : p.isPending = true) (consumed nonBlocking : Bool) :
    ∃ acked, p.ack consumed nonBlocking = .ok acked := by
  unfold Packet.ack
  rw [if_pos hp]
  exact ⟨_, rfl⟩

-- The verdict on the oldest packet reaches it.
theorem judge_head {rest : List Packet} (hq : q.packets = p :: rest) (hp : p.isPending = true)
    (consumed nonBlocking : Bool) :
    ∃ acked, p.ack consumed nonBlocking = .ok acked ∧
      q.judge p.eventId consumed nonBlocking = .ok (acked :: rest) := by
  obtain ⟨acked, hack⟩ := ack_of_isPending hp consumed nonBlocking
  exact ⟨acked, hack, by simp [judge, hq, hack, Except.map]⟩

-- So does the verdict on the newest, as long as no other packet has its number.
theorem judge_newest (hfresh : ∀ other ∈ q.packets, other.eventId ≠ p.eventId)
    (hp : p.isPending = true) (consumed nonBlocking : Bool) :
    ∃ acked, p.ack consumed nonBlocking = .ok acked ∧
      judge { q with packets := q.packets ++ [p] } p.eventId consumed nonBlocking =
        .ok (q.packets ++ [acked]) := by
  cases hq : q.packets with
  | nil => exact judge_head rfl hp consumed nonBlocking
  | cons head rest =>
    obtain ⟨acked, hack⟩ := ack_of_isPending hp consumed nonBlocking
    have hhead : head.eventId ≠ p.eventId := hfresh head (by simp [hq])
    refine ⟨acked, hack, ?_⟩
    simp [judge, hhead, hack, Except.map]

-- A queue that waits for its first packet gives nothing away for later ones.
theorem ready_append (h : q.HeadPending) (hne : q.packets ≠ []) (more : List Packet) :
    ready (q.packets ++ more) = [] ∧ waiting (q.packets ++ more) = q.packets ++ more := by
  match hq : q.packets with
  | [] => exact absurd hq hne
  | head :: rest =>
    have hhead : head.isPending = true := h head (by simp [hq])
    simp [ready, waiting, hhead]

end Release.Queue

namespace Channel.Chronicle

variable {k : Chronicle} {t : Touch} {consumed : Bool}

-- The packet of an accepted touch bears its number.
theorem packet_of_accepted (h : k.Sound) {result : TouchResult} {channel : Channel}
    (htouch : k.channel.touch t = .ok (result, channel)) (haccepted : result.accepted = true) :
    ∃ p, p.isPending = true ∧ p.eventId = t.id ∧ p.source.isTouch = true ∧
      k.channel.packet? t = some p ∧
      channel.queue = { k.channel.queue with packets := k.channel.queue.packets ++ [p] } := by
  obtain ⟨hrejected, -, -⟩ | ⟨contacts, gestures, detector, packet, -, haccept, -, hpacket, hsome,
    rfl⟩ := touch_cases h.head htouch
  · rw [haccepted] at hrejected
    cases hrejected
  · obtain ⟨change, contact, hlatest, -, rfl⟩ := Packet.ofTouch_eq_ok hpacket
    have hid := (ContactTable.accepted_note haccept).2.2
    simp only [ContactTable.eventId, hlatest] at hid
    refine ⟨_, ?_, ?_, ?_, hsome, rfl⟩
    · simp [Packet.pushAll_eq, Packet.isPending]
    · simp [Packet.pushAll_eq, hid]
    · simp [Packet.pushAll_eq, Packet.Source.isTouch_ofAction]

theorem queue_of_rejected (h : k.Sound) {result : TouchResult} {channel : Channel}
    (htouch : k.channel.touch t = .ok (result, channel)) (hrejected : result.accepted = false) :
    channel.queue = k.channel.queue ∧ k.channel.packet? t = none := by
  obtain ⟨-, hnone, rfl | rfl⟩ | ⟨_, _, _, _, haccepted, -⟩ := touch_cases h.head htouch
  · exact ⟨rfl, hnone⟩
  · exact ⟨rfl, hnone⟩
  · rw [hrejected] at haccepted
    cases haccepted

-- A verdict that reaches a packet releases those that are ready now.
theorem next_of_judge {id : EventId} {nonBlocking : Bool} {judged : List Packet}
    (hjudge : k.channel.queue.judge id consumed nonBlocking = .ok judged) :
    (k.next (.ack id consumed nonBlocking)).channel.queue =
        ⟨Queue.waiting judged,
          (k.channel.queue.outlet.replay ((Queue.ready judged).map .packet)).2⟩ ∧
      (k.next (.ack id consumed nonBlocking)).items =
        k.items ++ (Queue.ready judged).map .packet ∧
      (k.next (.ack id consumed nonBlocking)).queued = k.queued := by
  obtain ⟨d, hack⟩ : ∃ d, k.channel.ack id consumed nonBlocking = .ok d := by
    simp [Channel.ack, Pipeline.ack, Queue.ack, hjudge, Except.map]
  have hstep : k.channel.step (.ack id consumed nonBlocking) =
      .ok (d.released.drop k.channel.released.length, d) := by
    rw [Channel.step, hack]
    rfl
  obtain ⟨judged', hjudge', rfl⟩ := ack_eq_ok hack
  rw [hjudge] at hjudge'
  cases hjudge'
  rw [next_of_step hstep]
  refine ⟨?_, by simp [itemsBy, hjudge], by simp [queuedBy]⟩
  simp [collect, numberTaps, Queue.drain_eq]

-- What comes of touches whose verdicts are given at once: nothing of those that are turned
-- down, and of the others packets that go out at once if the queue is empty, and otherwise
-- wait behind the rest.
structure Answered (k : Chronicle) (ids : List EventId) (k' : Chronicle) (added : List Packet) :
    Prop where
  judged : ∀ p ∈ added, p.isPending = false ∧ p.eventId ∈ ids
  queued : k'.queued.map Packet.unjudged =
    k.queued.map Packet.unjudged ++ added.map Packet.unjudged
  waiting : k.channel.queue.packets ≠ [] →
    k'.channel.queue = { k.channel.queue with packets := k.channel.queue.packets ++ added } ∧
      k'.items = k.items
  empty : k.channel.queue.packets = [] →
    k'.channel.queue.packets = [] ∧ k'.items = k.items ++ added.map .packet

theorem answered_nothing {k' : Chronicle} {ids : List EventId} (hqueued : k'.queued = k.queued)
    (hqueue : k'.channel.queue = k.channel.queue) (hitems : k'.items = k.items) :
    Answered k ids k' [] where
  judged := by simp
  queued := by simp [hqueued]
  waiting := fun _ => ⟨by simp [hqueue], hitems⟩
  empty := fun hempty => ⟨by rw [hqueue, hempty], by simp [hitems]⟩

theorem Answered.trans {k₁ k₂ : Chronicle} {first second : List EventId}
    {added₁ added₂ : List Packet} (h₁ : Answered k first k₁ added₁)
    (h₂ : Answered k₁ second k₂ added₂) :
    Answered k (first ++ second) k₂ (added₁ ++ added₂) where
  judged := by
    intro p hp
    rcases List.mem_append.mp hp with hp | hp
    · exact ⟨(h₁.judged p hp).1, List.mem_append_left _ (h₁.judged p hp).2⟩
    · exact ⟨(h₂.judged p hp).1, List.mem_append_right _ (h₂.judged p hp).2⟩
  queued := by rw [h₂.queued, h₁.queued, List.map_append, List.append_assoc]
  waiting := by
    intro hne
    obtain ⟨hqueue₁, hitems₁⟩ := h₁.waiting hne
    have hne₁ : k₁.channel.queue.packets ≠ [] := by
      rw [hqueue₁]
      simp [hne]
    obtain ⟨hqueue₂, hitems₂⟩ := h₂.waiting hne₁
    exact ⟨by rw [hqueue₂, hqueue₁, List.append_assoc], hitems₂.trans hitems₁⟩
  empty := by
    intro hempty
    obtain ⟨hempty₁, hitems₁⟩ := h₁.empty hempty
    obtain ⟨hempty₂, hitems₂⟩ := h₂.empty hempty₁
    exact ⟨hempty₂, by rw [hitems₂, hitems₁, List.map_append, List.append_assoc]⟩

-- The packets that are queued afterwards are those before and answered ones.
theorem Answered.mem_packets {k' : Chronicle} {ids : List EventId} {added : List Packet}
    (h : Answered k ids k' added) {p : Packet} (hp : p ∈ k'.channel.queue.packets) :
    p ∈ k.channel.queue.packets ∨ p.eventId ∈ ids := by
  by_cases hempty : k.channel.queue.packets = []
  · rw [(h.empty hempty).1] at hp
    cases hp
  · rw [(h.waiting hempty).1] at hp
    rcases List.mem_append.mp hp with hp | hp
    · exact .inl hp
    · exact .inr (h.judged p hp).2

-- Nothing awaits a verdict that did not before.
theorem Answered.pendingIds {k' : Chronicle} {ids : List EventId} {added : List Packet}
    (h : Answered k ids k' added) : k'.channel.queue.pendingIds = k.channel.queue.pendingIds := by
  unfold Queue.pendingIds
  by_cases hempty : k.channel.queue.packets = []
  · rw [(h.empty hempty).1, hempty]
  · have hadded : added.filter Packet.isPending = [] := by
      rw [List.filter_eq_nil_iff]
      intro p hp
      simp [(h.judged p hp).1]
    rw [(h.waiting hempty).1, List.filter_append, hadded, List.append_nil]

theorem answered_of_rejected (h : Lived (fun _ => True) k) (hrejected : k.accepts t = false)
    (consumed : Bool) :
    Answered k [t.id] (k.answer t consumed) [] ∧
      (k.answer t consumed).channel.contacts = k.channel.contacts := by
  have hanswer : k.answer t consumed = k.next (.touch t) := by simp [answer, hrejected]
  unfold accepts at hrejected
  rw [hanswer]
  cases htouch : k.channel.touch t with
  | error violation =>
    have hnext : k.next (.touch t) = k := by
      simp [next, step, Channel.step, htouch, Except.map]
    rw [hnext]
    exact ⟨answered_nothing rfl rfl rfl, rfl⟩
  | ok result =>
    obtain ⟨result, channel⟩ := result
    simp only [htouch] at hrejected
    have hstep : k.channel.step (.touch t) =
        .ok (channel.released.drop k.channel.released.length, channel) := by
      rw [Channel.step, htouch]
      rfl
    obtain ⟨hqueue, hnone⟩ := queue_of_rejected h.sound htouch hrejected
    rw [next_of_step hstep]
    refine ⟨answered_nothing (by simp [queuedBy, hnone]) hqueue (by simp [itemsBy]), ?_⟩
    obtain ⟨-, -, rfl | rfl⟩ | ⟨_, _, _, _, haccepted, -⟩ := touch_cases h.sound.head htouch
    · exact ContactTable.settle_of_leaving_eq_none h.sound.settled
    · rfl
    · rw [hrejected] at haccepted
      cases haccepted

theorem answered_of_accepted (h : Lived (fun _ => True) k) (haccepts : k.accepts t = true)
    (hfresh : ∀ p ∈ k.channel.queue.packets, p.eventId ≠ t.id) (consumed : Bool) :
    ∃ p acked, k.channel.packet? t = some p ∧ p.ack consumed false = .ok acked ∧
      Answered k [t.id] (k.answer t consumed) [acked] := by
  have hanswer : k.answer t consumed = (k.next (.touch t)).next (.ack t.id consumed false) := by
    simp [answer, haccepts]
  unfold accepts at haccepts
  rw [hanswer]
  cases htouch : k.channel.touch t with
  | error violation =>
    rw [htouch] at haccepts
    cases haccepts
  | ok result =>
    obtain ⟨result, channel⟩ := result
    simp only [htouch] at haccepts
    have hstep : k.channel.step (.touch t) =
        .ok (channel.released.drop k.channel.released.length, channel) := by
      rw [Channel.step, htouch]
      rfl
    have hnext := next_of_step hstep
    obtain ⟨p, hp, hid, -, hsome, hqueue⟩ := packet_of_accepted h.sound htouch haccepts
    obtain ⟨acked, hack, hjudge⟩ := Queue.judge_newest (q := k.channel.queue)
      (fun other hother => hid ▸ hfresh other hother) hp consumed false
    rw [← hqueue, hid] at hjudge
    have hjudge' : (k.next (.touch t)).channel.queue.judge t.id consumed false =
        .ok (k.channel.queue.packets ++ [acked]) := by
      rw [hnext]
      exact hjudge
    obtain ⟨hqueue', hitems, hqueued⟩ := next_of_judge hjudge'
    have hunjudged := Packet.unjudged_of_ack hack
    have hjudged := Packet.isPending_of_ack hack
    refine ⟨p, acked, hsome, hack, ?_, ?_, fun hne => ?_, fun hempty => ?_⟩
    · intro q hq
      rw [List.mem_singleton.mp hq]
      have hid' := (Packet.eventId_eq_of_unjudged hunjudged).trans hid
      exact ⟨hjudged, List.mem_singleton.mpr hid'⟩
    · rw [hqueued, hnext]
      simp [queuedBy, hsome, hunjudged]
    · obtain ⟨hready, hwaiting⟩ := Queue.ready_append h.sound.head hne [acked]
      rw [hqueue', hitems, hready, hwaiting, hnext]
      simp [hqueue, itemsBy]
    · rw [hqueue', hitems, hempty, hnext]
      simp [Queue.ready, Queue.waiting, hjudged, itemsBy]

theorem exists_answered (h : Lived (fun _ => True) k)
    (hfresh : ∀ p ∈ k.channel.queue.packets, p.eventId ≠ t.id) (consumed : Bool) :
    ∃ added, Answered k [t.id] (k.answer t consumed) added := by
  cases haccepts : k.accepts t with
  | false => exact ⟨[], (answered_of_rejected h haccepts consumed).1⟩
  | true =>
    obtain ⟨_, acked, -, -, hanswered⟩ := answered_of_accepted h haccepts hfresh consumed
    exact ⟨[acked], hanswered⟩

theorem Answered.next_drain {k' : Chronicle} {ids : List EventId} {added : List Packet}
    (h : Answered k ids k' added) : Answered k ids (k'.next .drain) added := by
  have hnext := next_of_step (k := k') (e := .drain) rfl
  refine ⟨h.judged, ?_, fun hne => ?_, fun hempty => ?_⟩
  · rw [hnext]
    simpa [queuedBy] using h.queued
  · rw [hnext]
    simpa [itemsBy, Channel.drain] using h.waiting hne
  · rw [hnext]
    simpa [itemsBy, Channel.drain] using h.empty hempty

theorem exists_answered_inject (h : Lived (fun _ => True) k)
    (hfresh : ∀ p ∈ k.channel.queue.packets, p.eventId ≠ t.id) (handles : Touch → Bool) :
    ∃ added, Answered k [t.id] (k.inject handles t) added := by
  obtain ⟨added, hanswered⟩ := exists_answered h hfresh (handles t)
  unfold inject
  split
  · exact ⟨added, hanswered.next_drain⟩
  · exact ⟨added, hanswered⟩

-- Answering a touch leaves the numbers of later ones unused.
theorem Answered.fresh {k' : Chronicle} {added : List Packet} {rest : List EventId}
    (h : Answered k [t.id] k' added) (hids : (t.id :: rest).Nodup)
    (hfresh : ∀ p ∈ k.channel.queue.packets, p.eventId ∉ t.id :: rest) :
    ∀ p ∈ k'.channel.queue.packets, p.eventId ∉ rest := by
  intro p hp hmem
  rcases h.mem_packets hp with hp | hid
  · exact hfresh p hp (List.mem_cons_of_mem _ hmem)
  · rw [List.mem_singleton.mp hid] at hmem
    exact (List.nodup_cons.mp hids).1 hmem

-- Touches with numbers of their own, answered one after the other.
theorem exists_answered_injectAll {touches : List Touch} (h : Lived (fun _ => True) k)
    (hids : (touches.map (·.id)).Nodup)
    (hfresh : ∀ p ∈ k.channel.queue.packets, p.eventId ∉ touches.map (·.id))
    (handles : Touch → Bool) :
    ∃ added, Answered k (touches.map (·.id)) (touches.foldl (·.inject handles) k) added := by
  induction touches generalizing k with
  | nil => exact ⟨[], answered_nothing rfl rfl rfl⟩
  | cons t rest ih =>
    obtain ⟨added, hanswered⟩ := exists_answered_inject h (t := t)
      (fun p hp hid => hfresh p hp (by simp [hid])) handles
    obtain ⟨others, hothers⟩ := ih (h.inject handles t) (List.nodup_cons.mp hids).2
      (hanswered.fresh hids hfresh)
    exact ⟨added ++ others, hanswered.trans hothers⟩

theorem next_forgetHistory (k : Chronicle) :
    (k.next .forgetHistory).channel = k.channel.forgetHistory ∧
      (k.next .forgetHistory).items = k.items ++ [.forgotten] := by
  rw [next_of_step (k := k) (e := .forgetHistory) rfl]
  exact ⟨rfl, rfl⟩

end Channel.Chronicle

end TouchGestures
