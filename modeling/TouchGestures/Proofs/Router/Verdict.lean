import TouchGestures.Proofs.Router.Awaiting
import TouchGestures.Proofs.Router.Proper

namespace TouchGestures

open Release (Queue)

-- Only a packet without a verdict can be given one.
theorem Packet.isPending_of_ack_eq_ok {p q : Packet} {consumed nonBlocking : Bool}
    (h : p.ack consumed nonBlocking = .ok q) : p.isPending = true := by
  unfold ack at h
  split at h
  · assumption
  · cases h

namespace Release.Queue

-- What is ready to go out has its verdict.
theorem pendingIds_waiting (packets : List Packet) (outlet : Outlet) :
    pendingIds ⟨waiting packets, outlet⟩ = (packets.filter Packet.isPending).map (·.eventId) := by
  unfold pendingIds waiting
  induction packets with
  | nil => rfl
  | cons p rest ih =>
    cases hp : p.isPending with
    | false =>
      rw [List.dropWhile_cons_of_pos (by simp [hp]), ih, List.filter_cons_of_neg (by simp [hp])]
    | true => rw [List.dropWhile_cons_of_neg (by simp [hp])]

-- A queue in which something awaits a verdict starts with the packet of that.
theorem HeadPending.exists_head {q : Queue} {id : EventId} {later : List EventId}
    (h : q.HeadPending) (hids : q.pendingIds = id :: later) :
    ∃ p rest, q.packets = p :: rest ∧ p.isPending = true ∧ p.eventId = id ∧
      (rest.filter Packet.isPending).map (·.eventId) = later := by
  unfold pendingIds at hids
  match hq : q.packets with
  | [] =>
    rw [hq] at hids
    cases hids
  | p :: rest =>
    have hp : p.isPending = true := h p (by simp [hq])
    rw [hq, List.filter_cons_of_pos hp, List.map_cons, List.cons.injEq] at hids
    exact ⟨p, rest, rfl, hp, hids.1, hids.2⟩

end Release.Queue

namespace Channel.Chronicle

-- A verdict that a channel takes in is one that it awaits, and then does no longer.
theorem queue_of_ack {k : Chronicle} {channel : Channel} {id : EventId}
    {consumed nonBlocking : Bool} (hack : k.channel.ack id consumed nonBlocking = .ok channel) :
    (∃ earlier later, k.channel.queue.pendingIds = earlier ++ id :: later ∧
        channel.queue.pendingIds = earlier ++ later) ∧
      ∀ q ∈ channel.queue.packets, ∃ q' ∈ k.channel.queue.packets, q.eventId = q'.eventId := by
  obtain ⟨judged, hjudge, -⟩ := ack_eq_ok hack
  obtain ⟨before, p, acked, after, hpackets, hid, hacked, rfl, -⟩ := Queue.judge_cases hjudge
  obtain ⟨hnext, -⟩ := next_of_ack hack
  obtain ⟨hqueue, -, -⟩ := next_of_judge hjudge
  rw [hnext] at hqueue
  have hpending := Packet.isPending_of_ack_eq_ok hacked
  have hdone := Packet.isPending_of_ack hacked
  rw [hqueue]
  refine ⟨⟨(before.filter Packet.isPending).map (·.eventId),
    (after.filter Packet.isPending).map (·.eventId), ?_, ?_⟩, fun q hq => ?_⟩
  · rw [Queue.pendingIds, hpackets, List.filter_append, List.filter_cons_of_pos hpending,
      List.map_append, List.map_cons, hid]
  · rw [Queue.pendingIds_waiting, List.filter_append, List.filter_cons_of_neg (by simp [hdone]),
      List.map_append]
  · have hmem : q ∈ before ++ acked :: after := (List.dropWhile_sublist _).subset hq
    rw [hpackets]
    rcases List.mem_append.mp hmem with hmem | hmem
    · exact ⟨q, List.mem_append_left _ hmem, rfl⟩
    · rcases List.mem_cons.mp hmem with rfl | hmem
      · have hid := Packet.eventId_eq_of_unjudged (Packet.unjudged_of_ack hacked)
        exact ⟨p, List.mem_append_right _ List.mem_cons_self, hid⟩
      · exact ⟨q, List.mem_append_right _ (List.mem_cons_of_mem _ hmem), rfl⟩

end Channel.Chronicle

namespace Session

open Channel (Chronicle)
open Router (Act Handout mem_channels_iff)

variable {s s' : Session} {key : ChannelKey} {id : EventId}

-- The verdict that may come next on a channel.
theorem mayAck_iff : s.MayAck id ↔ ∃ key later, s.awaitingOn key = id :: later := by
  unfold MayAck awaitingOn
  refine exists_congr fun key => ?_
  rw [List.head?_eq_some_iff]
  constructor
  · rintro ⟨later, hlater⟩
    exact ⟨later.map (·.2), by rw [hlater, List.map_cons]⟩
  · rintro ⟨later, hlater⟩
    obtain ⟨⟨other, number⟩, rest, hrest, hnumber, -⟩ := List.map_eq_cons_iff.mp hlater
    have hmem : (other, number) ∈ s.awaiting.filter fun entry => entry.1 = key := by simp [hrest]
    obtain ⟨-, hother⟩ := List.mem_filter.mp hmem
    obtain rfl : other = key := by simpa using hother
    obtain rfl : number = id := hnumber
    exact ⟨rest, hrest⟩

theorem mem_awaitingOn : id ∈ s.awaitingOn key ↔ (key, id) ∈ s.awaiting := by
  simp [awaitingOn]

-- The verdict on the oldest touch of a channel reaches its packet, and lets out what is
-- ready then. It is of no account who sends it.
theorem Consistent.ack_of_live {later : List EventId} (h : s.Consistent)
    (hm : s.router.Mirrors s.books) (hids : s.awaitingOn key = id :: later)
    (hlive : key ∈ s.router.channels) (consumed nonBlocking : Bool) :
    ∃ k p rest acked channel, s.router.Accounts key k ∧ k.channel.queue.packets = p :: rest ∧
      p.isPending = true ∧ p.eventId = id ∧
      (rest.filter Packet.isPending).map (·.eventId) = later ∧
      p.ack consumed nonBlocking = .ok acked ∧
      k.channel.queue.judge id consumed nonBlocking = .ok (acked :: rest) ∧
      k.channel.ack id consumed nonBlocking = .ok channel ∧
      ∀ consumer, s.router.ack id consumed nonBlocking consumer =
        .ok (channel.released,
          { s.router with events := s.router.events.erase id }.put key channel.drain.2) := by
  obtain ⟨channel, hchannel⟩ := mem_channels_iff.mp hlive
  obtain ⟨k, -, hk⟩ := hm.book hchannel
  obtain rfl := hk.channel_eq hchannel
  have hpending := (h.pending hchannel).trans hids
  obtain ⟨p, rest, hpackets, hp, rfl, hrest⟩ := hk.lived.sound.head.exists_head hpending
  obtain ⟨acked, hacked, hjudge⟩ := Queue.judge_head hpackets hp consumed nonBlocking
  have hmem : (key, p.eventId) ∈ s.awaiting := mem_awaitingOn.mp (by simp [hids])
  obtain ⟨hevent, horphan⟩ := h.event_of_mem hmem hlive
  obtain ⟨channel, hack⟩ : ∃ channel, k.channel.ack p.eventId consumed nonBlocking = .ok channel := by
    simp [Channel.ack, Pipeline.ack, Queue.ack, hjudge, Except.map]
  refine ⟨k, p, rest, acked, channel, hk, hpackets, hp, rfl, hrest, hacked, hjudge, hack,
    fun consumer => ?_⟩
  simp [Router.ack, horphan, Router.awaiting?, hevent, hk.live, hack]
  rfl

-- Nothing comes of the verdict on a touch whose channel is gone.
theorem Consistent.ack_of_gone (h : s.Consistent) (hmem : (key, id) ∈ s.awaiting)
    (hgone : key ∉ s.router.channels) (consumed nonBlocking : Bool) (consumer : ConsumerId) :
    s.router.ack id consumed nonBlocking consumer =
      .ok ([], { s.router with orphans := s.router.orphans.erase id }) := by
  have horphan : id ∈ s.router.orphans := h.orphans.mpr ⟨key, hmem, hgone⟩
  simp [Router.ack, horphan]

theorem awaitingOn_filter {router : Router} {books : Books} {numbers : List EventId}
    {handed : List Handout} (other : ChannelKey) :
    awaitingOn ⟨router, books, s.awaiting.filter fun (_, number) => number ≠ id, numbers, handed⟩
      other = (s.awaitingOn other).filter fun number => number ≠ id := by
  unfold awaitingOn
  rw [List.filter_map, List.filter_filter, List.filter_filter]
  congr 1
  exact List.filter_congr fun entry _ => by simp [Bool.and_comm]

-- A touch awaits one verdict on one channel.
theorem Consistent.awaitingOn_of_ne (h : s.Consistent) (hmem : (key, id) ∈ s.awaiting)
    {other : ChannelKey} (hother : other ≠ key) : id ∉ s.awaitingOn other := by
  intro hid
  have hsame : (other, id) = (key, id) :=
    List.inj_on_of_nodup_map h.distinct (mem_awaitingOn.mp hid) hmem rfl
  exact hother (congrArg Prod.fst hsame)

theorem Consistent.nodup_awaitingOn (h : s.Consistent) (key : ChannelKey) :
    (s.awaitingOn key).Nodup :=
  (List.filter_sublist.map _).nodup h.distinct

-- A verdict that was given is not awaited any more.
theorem Consistent.settle {router : Router} {books : Books} {handed : List Handout}
    (h : s.Consistent) (hnext : router.nextKey = s.router.nextKey)
    (hevents : ∀ other : EventId,
      router.events[other]? = if id = other then none else s.router.events[other]?)
    (horphans : ∀ other : EventId, other ∈ router.orphans ↔ id ≠ other ∧ other ∈ s.router.orphans)
    (hlive : ∀ key : ChannelKey, key ∈ router.channels ↔ key ∈ s.router.channels)
    (hqueue : ∀ {key : ChannelKey} {channel : Channel}, router.channels[key]? = some channel →
      ∃ before, s.router.channels[key]? = some before ∧
        channel.queue.pendingIds = before.queue.pendingIds.filter (fun number => number ≠ id) ∧
        ∀ p ∈ channel.queue.packets, ∃ q ∈ before.queue.packets, p.eventId = q.eventId) :
    Consistent ⟨router, books, s.awaiting.filter fun (_, number) => number ≠ id, s.numbers ++ [],
      handed⟩ := by
  refine ⟨?_, ?_, ?_, ?_, ?_, ?_⟩
  · intro other channel hchannel
    obtain ⟨before, hbefore, hpending, -⟩ := hqueue hchannel
    rw [awaitingOn_filter, hpending, h.pending hbefore]
  · intro other channel hchannel p hp
    obtain ⟨before, hbefore, -, hpackets⟩ := hqueue hchannel
    obtain ⟨q, hq, hid⟩ := hpackets p hp
    rw [hid, List.append_nil]
    exact h.numbered hbefore q hq
  · intro entry hentry
    rw [hnext, List.append_nil]
    exact h.awaited entry (List.mem_filter.mp hentry).1
  · exact (List.filter_sublist.map _).nodup h.distinct
  · intro number other
    rw [hevents, hlive]
    by_cases hnumber : id = number
    · simp [hnumber]
    · rw [if_neg hnumber, h.events]
      simp [Ne.symm hnumber]
  · intro number
    rw [horphans, h.orphans]
    simp only [hlive]
    by_cases hnumber : id = number
    · simp [hnumber]
    · simp [hnumber, Ne.symm hnumber]

theorem filter_ne_eq_self {numbers : List EventId} (h : id ∉ numbers) :
    numbers.filter (fun number => number ≠ id) = numbers := by
  refine List.filter_eq_self.mpr fun number hnumber => ?_
  have hne : number ≠ id := fun heq => h (heq ▸ hnumber)
  simpa using hne

section Ack

variable {consumed nonBlocking : Bool} {consumer : ConsumerId} {gestures : List Gesture}
  {router : Router} {books : Books} {handed : List Handout}

-- The other channels do not wait for a verdict that one awaits.
theorem Consistent.pendingIds_of_ne (h : s.Consistent) (hmem : (key, id) ∈ s.awaiting)
    {other : ChannelKey} {channel : Channel} (hother : other ≠ key)
    (hchannel : s.router.channels[other]? = some channel) :
    channel.queue.pendingIds = channel.queue.pendingIds.filter fun number => number ≠ id := by
  rw [h.pending hchannel, filter_ne_eq_self (h.awaitingOn_of_ne hmem hother)]

-- A verdict that was given on the channel that awaits it.
theorem Consistent.ack_live {k : Chronicle} {channel : Channel} (h : s.Consistent)
    (hk : s.router.Accounts key k) (hack : k.channel.ack id consumed nonBlocking = .ok channel) :
    Consistent ⟨{ s.router with events := s.router.events.erase id }.put key channel.drain.2, books,
      s.awaiting.filter fun (_, number) => number ≠ id, s.numbers ++ [], handed⟩ := by
  obtain ⟨⟨earlier, later, hids, hleft⟩, hpackets⟩ := Chronicle.queue_of_ack hack
  have hawaited : s.awaitingOn key = earlier ++ id :: later := (h.pending hk.live).symm.trans hids
  have hmem : (key, id) ∈ s.awaiting := mem_awaitingOn.mp (by simp [hawaited])
  have horphan := (h.event_of_mem hmem (mem_channels_iff.mpr ⟨_, hk.live⟩)).2
  have hget : ∀ other : ChannelKey,
      ({ s.router with events := s.router.events.erase id }.put key
        channel.drain.2).channels[other]? =
          if key = other then some channel.drain.2 else s.router.channels[other]? :=
    fun other => Router.getElem?_channels_put
  refine h.settle rfl (fun other => ?_) (fun other => ?_) (fun other => ?_)
    fun {other after} hafter => ?_
  · simp [Router.put, Std.ExtTreeMap.getElem?_erase]
  · refine ⟨fun hother => ⟨?_, hother⟩, And.right⟩
    rintro rfl
    exact horphan hother
  · rw [mem_channels_iff, mem_channels_iff, hget]
    by_cases hother : key = other
    · subst hother
      simp [hk.live]
    · simp [hother]
  · rw [hget] at hafter
    by_cases hother : key = other
    · subst hother
      rw [if_pos rfl, Option.some.injEq] at hafter
      subst hafter
      have hnodup := h.nodup_awaitingOn key
      rw [hawaited, List.nodup_middle, List.nodup_cons, List.mem_append, not_or] at hnodup
      refine ⟨k.channel, hk.live, ?_, hpackets⟩
      rw [hids, List.filter_append, List.filter_cons_of_neg (by simp),
        filter_ne_eq_self hnodup.1.1, filter_ne_eq_self hnodup.1.2, ← hleft]
      rfl
    · rw [if_neg hother] at hafter
      exact ⟨after, hafter, h.pendingIds_of_ne hmem (Ne.symm hother) hafter,
        fun q hq => ⟨q, hq, rfl⟩⟩

-- Nothing comes of a verdict that nobody awaits, where it comes to nothing at all.
theorem Consistent.ack_unawaited (h : s.Consistent) (hnone : ∀ key, (key, id) ∉ s.awaiting) :
    Consistent ⟨{ s.router with events := s.router.events.erase id }, books,
      s.awaiting.filter fun (_, number) => number ≠ id, s.numbers ++ [], handed⟩ := by
  refine h.settle rfl (fun other => ?_) (fun other => ⟨fun hother => ⟨?_, hother⟩, And.right⟩)
    (fun _ => Iff.rfl) fun {other after} hafter => ?_
  · simp [Std.ExtTreeMap.getElem?_erase]
  · rintro rfl
    obtain ⟨key, hmem, -⟩ := h.orphans.mp hother
    exact hnone key hmem
  · refine ⟨after, hafter, ?_, fun q hq => ⟨q, hq, rfl⟩⟩
    rw [h.pending hafter, filter_ne_eq_self fun hid => hnone other (mem_awaitingOn.mp hid)]

theorem Consistent.ack_gone (h : s.Consistent) (hmem : (key, id) ∈ s.awaiting)
    (hgone : key ∉ s.router.channels) :
    Consistent ⟨{ s.router with orphans := s.router.orphans.erase id }, books,
      s.awaiting.filter fun (_, number) => number ≠ id, s.numbers ++ [], handed⟩ := by
  have hunseen : s.router.events[id]? = none := by
    refine Option.eq_none_iff_forall_ne_some.mpr fun other hother => ?_
    obtain ⟨hother, hmem'⟩ := h.events.mp hother
    by_cases hsame : other = key
    · exact hgone (hsame ▸ hmem')
    · exact h.awaitingOn_of_ne hmem hsame (mem_awaitingOn.mpr hother)
  refine h.settle rfl (fun other => ?_) (fun other => ?_) (fun _ => Iff.rfl)
    fun {other after} hafter => ?_
  · split
    · next hother => rw [← hother, hunseen]
    · rfl
  · simp [Std.ExtTreeSet.mem_erase]
  · have hother : other ≠ key := by
      rintro rfl
      exact hgone (mem_channels_iff.mpr ⟨_, hafter⟩)
    exact ⟨after, hafter, h.pendingIds_of_ne hmem hother hafter, fun q hq => ⟨q, hq, rfl⟩⟩

-- Whichever verdict is given, and whoever gives it, all agree on what is outstanding.
theorem Consistent.ack (h : s.Consistent) (hm : s.router.Mirrors s.books)
    (hr : s.router.ack id consumed nonBlocking consumer = .ok (gestures, router)) :
    Consistent ⟨router, books, s.awaiting.filter fun (_, number) => number ≠ id, s.numbers ++ [],
      handed⟩ := by
  obtain ⟨horphan, -, rfl⟩ | ⟨horphan, hgone, -, rfl⟩ |
    ⟨key, channel, channel', -, -, hlive, hack, -, rfl⟩ := Router.ack_cases hr
  · obtain ⟨key, hmem, hgone⟩ := h.orphans.mp horphan
    exact h.ack_gone hmem hgone
  · refine h.ack_unawaited fun key hmem => ?_
    by_cases hlive : key ∈ s.router.channels
    · obtain ⟨hevent, -⟩ := h.event_of_mem hmem hlive
      obtain ⟨channel, hchannel⟩ := mem_channels_iff.mp hlive
      rw [hgone key (by simp [Router.awaiting?, hevent])] at hchannel
      cases hchannel
    · exact horphan (h.orphans.mpr ⟨key, hmem, hlive⟩)
  · obtain ⟨k, -, hk⟩ := hm.book hlive
    obtain rfl := hk.channel_eq hlive
    exact h.ack_live hk hack

end Ack

-- Whatever is done, all agree on what is outstanding.
theorem Consistent.act {a : Act} {router : Router} {handouts : List Handout} (h : s.Consistent)
    (hm : s.router.Mirrors s.books) (hnodup : (s.numbers ++ s.router.numbersOf a).Nodup)
    (hr : s.router.act a = .ok (handouts, router)) :
    Consistent ⟨router, s.router.record s.books a, s.router.awaitingAfter s.awaiting a,
      s.numbers ++ s.router.numbersOf a, s.handed ++ handouts⟩ := by
  cases a with
  | touch t consumer =>
    obtain ⟨⟨result, after⟩, htouch, heq⟩ := map_eq_ok.mp hr
    cases heq
    simp only [Router.awaitingAfter, htouch]
    exact h.touch hm hnodup htouch
  | ack id consumed nonBlocking consumer =>
    obtain ⟨⟨gestures, after⟩, hack, heq⟩ := map_eq_ok.mp hr
    cases heq
    exact h.ack hm hack
  | cancelChannel now consumer key =>
    obtain ⟨result, hcancel, heq⟩ := map_eq_ok.mp hr
    cases heq
    exact h.cancelChannel hm hnodup hcancel
  | reenter clock key contacts =>
    obtain ⟨after, hreenter, heq⟩ := map_eq_ok.mp hr
    cases heq
    exact h.reenter hm hnodup hreenter
  | tick now key => exact h.tick hr
  | forgetHistory key =>
    cases hr
    exact h.forgetHistory
  | reassign source target key =>
    cases hr
    exact h.displace
  | forget consumer =>
    cases hr
    exact h.forget
  | configure settings =>
    cases hr
    exact h.configure
  | rebind | addHelper | removeHelper | setIds =>
    cases hr
    exact h.same_packets rfl rfl rfl fun _ => rfl

end Session

end TouchGestures
