import TouchGestures.Proofs.Router.Handed
import TouchGestures.Proofs.Channel.Standing

namespace TouchGestures

open Channel (Chronicle)

namespace Release.Queue

-- Whatever the numbers of the packets, the verdict on the newest reaches it, or else the
-- oldest if that has the same number. Both await one.
theorem exists_judge_newest {q : Queue} {p : Packet} (h : q.HeadPending)
    (hp : p.isPending = true) (consumed nonBlocking : Bool) :
    ∃ judged, judge { q with packets := q.packets ++ [p] } p.eventId consumed nonBlocking =
      .ok judged := by
  obtain ⟨newest, hnewest⟩ := ack_of_isPending hp consumed nonBlocking
  cases hq : q.packets with
  | nil => simp [judge, hnewest]
  | cons oldest rest =>
    obtain ⟨acked, hacked⟩ := ack_of_isPending (h oldest (by simp [hq])) consumed nonBlocking
    by_cases hid : oldest.eventId = p.eventId
    · simp [judge, hid, hacked]
    · simp [judge, hid, hnewest]

end Release.Queue

namespace Channel

-- A channel is ready for everything but a verdict from outside: the contacts know who
-- acted, so that the packet of a touch they accept can be built and queued, the verdict on
-- an accepted touch finds a packet that waits for one, and alarms can ring.
structure Ready (c : Channel) : Prop where
  packet : ∀ {t contacts}, c.contacts.touch t = (true, contacts) →
    contacts.acting?.isSome = true ∧
      ∃ p, Packet.ofTouch contacts = .ok p ∧ p.source.isTouch = true
  touch : ∀ t, ∃ result d, c.touch t = .ok (result, d)
  verdict : ∀ {t result d}, c.touch t = .ok (result, d) → result.accepted = true →
    (∃ p ∈ d.queue.packets, p.eventId = t.id ∧ p.isPending = true) ∧
      ∀ consumed nonBlocking, ∃ e, d.ack t.id consumed nonBlocking = .ok e
  tick : ∀ now, ∃ result, c.tick now = .ok result

theorem exists_packet {c : Channel} {t : Touch} {contacts : ContactTable}
    (htouch : c.contacts.touch t = (true, contacts)) :
    contacts.acting?.isSome = true ∧
      ∃ p, Packet.ofTouch contacts = .ok p ∧ p.source.isTouch = true := by
  unfold ContactTable.touch at htouch
  dsimp only at htouch
  split at htouch
  · next touched haccept =>
    cases htouch
    obtain ⟨hacting, hlatest, -⟩ := ContactTable.accepted_note haccept
    obtain ⟨p, hp⟩ := Packet.exists_ofTouch hlatest hacting
    obtain ⟨change, contact, -, -, rfl⟩ := Packet.ofTouch_eq_ok hp
    exact ⟨hacting, _, hp, Packet.Source.isTouch_ofAction _⟩
  · cases htouch

namespace Chronicle

variable {k : Chronicle} {t : Touch} {result : TouchResult} {channel : Channel}

-- The verdict on a touch can be given as soon as the touch is accepted.
theorem exists_ack (h : k.Sound) (htouch : k.channel.touch t = .ok (result, channel))
    (haccepted : result.accepted = true) (consumed nonBlocking : Bool) :
    ∃ channel', channel.ack t.id consumed nonBlocking = .ok channel' := by
  obtain ⟨p, hp, hid, -, -, hqueue⟩ := packet_of_accepted h htouch haccepted
  obtain ⟨judged, hjudge⟩ := Release.Queue.exists_judge_newest h.head hp consumed nonBlocking
  rw [← hqueue, hid] at hjudge
  simp [Channel.ack, Pipeline.ack, Release.Queue.ack, hjudge]

theorem Sound.ready (h : k.Sound) : k.channel.Ready where
  packet := exists_packet
  touch := exists_touch h
  verdict := by
    intro t result d htouch haccepted
    obtain ⟨p, hp, hid, -, -, hqueue⟩ := packet_of_accepted h htouch haccepted
    exact ⟨⟨p, by simp [Channel.queue, hqueue], hid, hp⟩, exists_ack h htouch haccepted⟩
  tick := fun now => ⟨_, Channel.tick_eq _ now⟩

end Chronicle

end Channel

namespace Router

variable {r : Router} {books : Books} {key : ChannelKey} {k : Chronicle}

theorem exists_touch (h : r.Mirrors books) (t : Touch) (consumer : ConsumerId) :
    ∃ result, r.touch t consumer = .ok result := by
  unfold Router.touch
  dsimp only
  cases hlive : (r.obtain consumer).2.channels[(r.obtain consumer).1]? with
  | none => exact ⟨_, rfl⟩
  | some channel =>
    obtain ⟨k, -, hk⟩ := h.obtain.book hlive
    obtain rfl := hk.channel_eq hlive
    obtain ⟨result, channel, htouch⟩ := Chronicle.exists_touch hk.lived.sound t
    simp only [htouch, ok_bind]
    split <;> exact ⟨_, rfl⟩

theorem exists_inject (h : r.Accounts key k) (consumer : ConsumerId) (t : Touch) :
    ∃ result, r.inject consumer key t = .ok result := by
  obtain ⟨result, channel, htouch⟩ := Chronicle.exists_touch h.lived.sound t
  simp only [inject, h.live, htouch, ok_bind]
  split
  · next haccepted =>
    obtain ⟨acked, hack⟩ := Chronicle.exists_ack h.lived.sound htouch haccepted
      ((r.bind t consumer).handles consumer t) false
    rw [hack]
    exact ⟨_, rfl⟩
  · exact ⟨_, rfl⟩

theorem exists_injectAll (h : r.Accounts key k) (consumer : ConsumerId) (touches : List Touch) :
    ∃ result, r.injectAll consumer key touches = .ok result := by
  induction touches generalizing r k with
  | nil => exact ⟨_, rfl⟩
  | cons t rest ih =>
    obtain ⟨⟨first, r₁⟩, hfirst⟩ := exists_inject h consumer t
    obtain ⟨others, hothers⟩ := ih (inject_continues h hfirst).accounts
    simp only [injectAll, hfirst, ok_bind, hothers]
    exact ⟨_, rfl⟩

theorem exists_cancelChannel (h : r.Mirrors books) (now : Time) (consumer : ConsumerId)
    (key : ChannelKey) : ∃ result, r.cancelChannel now consumer key = .ok result := by
  unfold cancelChannel
  cases hlive : r.channels[key]? with
  | none => exact ⟨_, rfl⟩
  | some channel =>
    obtain ⟨k, -, hk⟩ := h.book hlive
    have hsame : { r with ids := (channel.contacts.cancels now r.ids).2 }.Accounts key k :=
      ⟨hk.live, hk.taken, hk.lived⟩
    obtain ⟨result, hinject⟩ := exists_injectAll hsame consumer
      (channel.contacts.cancels now r.ids).1
    simp only [hinject, ok_bind]
    exact ⟨_, rfl⟩

theorem exists_enterAll (hlive : r.channels[key]? = some k.channel)
    (hlived : Channel.Lived (fun _ => True) k) (clock : Clock)
    (contacts : List Contact) : ∃ r', r.enterAll clock key contacts = .ok r' := by
  induction contacts generalizing r k clock with
  | nil => exact ⟨_, rfl⟩
  | cons contact rest ih =>
    obtain ⟨result, touched, htouch⟩ := Chronicle.exists_touch hlived.sound
      (contact.synthesize .pressed clock.now r.ids.fresh.1)
    obtain ⟨channel, hack⟩ : ∃ channel, (if result.accepted then
        touched.ack r.ids.fresh.1 true false else .ok touched) = .ok channel := by
      split
      · next haccepted => exact Chronicle.exists_ack hlived.sound htouch haccepted true false
      · exact ⟨_, rfl⟩
    have henter : k.channel.enter contact clock.now r.ids.fresh.1 = .ok channel := by
      rw [Channel.enter, htouch, ok_bind]
      exact hack
    have hanswer := channel_answer hlived htouch hack
    have hfirst : r.enter clock.now key contact = .ok (r.drawId.2.put key channel) := by
      simp only [enter, hlive, drawId, henter, ok_bind]
    have hlive' : (r.drawId.2.put key channel).channels[key]? =
        some (k.answer (contact.synthesize .pressed clock.now r.ids.fresh.1) true).channel := by
      rw [hanswer, getElem?_channels_put, if_pos rfl]
    obtain ⟨r', hrest⟩ := ih hlive' (hlived.answer _ _) clock.rest
    exact ⟨r', by rw [enterAll, hfirst, ok_bind, hrest]⟩

theorem exists_reenter (h : r.Mirrors books) (clock : Clock) (key : ChannelKey)
    (contacts : List Contact) : ∃ r', r.reenter clock key contacts = .ok r' := by
  cases hlive : r.channels[key]? with
  | none => exact ⟨r, reenter_of_none hlive⟩
  | some channel =>
    obtain ⟨k, -, hk⟩ := h.book hlive
    obtain ⟨r', henter⟩ := exists_enterAll hk.forgotten (hk.lived.next _) clock contacts
    exact ⟨_, by rw [reenter, henter, ok_bind]⟩

-- Every step can be taken at any time, verdicts apart.
theorem exists_act {a : Act} (h : r.Mirrors books)
    (ha : ∀ id consumed nonBlocking consumer, a ≠ .ack id consumed nonBlocking consumer) :
    ∃ result, r.act a = .ok result := by
  cases a with
  | touch t consumer =>
    obtain ⟨result, htouch⟩ := exists_touch h t consumer
    exact ⟨_, by rw [act, htouch, ok_map]⟩
  | ack id consumed nonBlocking consumer => exact absurd rfl (ha _ _ _ _)
  | cancelChannel now consumer key =>
    obtain ⟨result, hcancel⟩ := exists_cancelChannel h now consumer key
    exact ⟨_, by rw [act, hcancel, ok_map]⟩
  | reenter clock key contacts =>
    obtain ⟨r', hreenter⟩ := exists_reenter h clock key contacts
    exact ⟨_, by rw [act, hreenter, ok_map]⟩
  | tick now key =>
    simp only [act]
    split
    · exact ⟨_, rfl⟩
    · next channel _ => exact ⟨_, by rw [Channel.tick_eq, ok_map]⟩
  | forgetHistory | reassign | rebind | forget | configure | addHelper | removeHelper | setIds =>
    exact ⟨_, rfl⟩

end Router

namespace Session

open Router (Act Op)

variable {s : Session} {permits : Session → Op → Prop}

theorem exists_play (h : s.router.Mirrors s.books) (acts : List Act)
    (hacts : ∀ id consumed nonBlocking consumer, .ack id consumed nonBlocking consumer ∉ acts) :
    ∃ s', s.play acts = .ok s' := by
  induction acts generalizing s with
  | nil => exact ⟨s, rfl⟩
  | cons a rest ih =>
    obtain ⟨result, hr⟩ := Router.exists_act (a := a) h fun id consumed nonBlocking consumer heq =>
      hacts id consumed nonBlocking consumer (by simp [heq])
    obtain ⟨s₁, ha⟩ : ∃ s₁, s.act a = .ok s₁ := ⟨_, by rw [act, hr, ok_map]⟩
    obtain ⟨s', hrest⟩ := ih (mirrors_act h ha) fun id consumed nonBlocking consumer hmem =>
      hacts id consumed nonBlocking consumer (List.mem_cons_of_mem a hmem)
    exact ⟨s', by rw [play, ha, ok_bind, hrest]⟩

-- Whatever a host has done, and however it numbers its touches, no operation but a verdict
-- ends in a violation. Its steps can be taken one after the other, and find all channels
-- ready.
theorem Reached.perform_of_ne_ack {op : Op} (h : Reached permits s)
    (hop : ∀ id consumed nonBlocking consumer, op ≠ .ack id consumed nonBlocking consumer) :
    (∃ notices router, s.router.perform op = .ok (notices, router)) ∧
      ∀ earlier later, s.router.acts op = earlier ++ later →
        ∃ s₁, s.play earlier = .ok s₁ ∧
          ∀ (key : ChannelKey) (channel : Channel),
            s₁.router.channels[key]? = some channel → channel.Ready := by
  have hacts : ∀ id consumed nonBlocking consumer,
      .ack id consumed nonBlocking consumer ∉ s.router.acts op :=
    fun id consumed nonBlocking consumer hmem =>
      hop id consumed nonBlocking consumer (Router.eq_of_mem_acts hmem rfl)
  constructor
  · obtain ⟨s', hs'⟩ := exists_play h.mirrors _ hacts
    obtain ⟨handouts, -, hhanded⟩ := play_router hs'
    exact ⟨_, _, perform_iff.mpr ⟨s', handouts, hs', rfl, hhanded, rfl⟩⟩
  · intro earlier later hsplit
    obtain ⟨s₁, hs₁⟩ := exists_play h.mirrors earlier
      fun id consumed nonBlocking consumer hmem =>
        hacts id consumed nonBlocking consumer (by simp [hsplit, hmem])
    refine ⟨s₁, hs₁, fun key channel hlive => ?_⟩
    obtain ⟨k, -, hk⟩ := (mirrors_play h.mirrors hs₁).book hlive
    rw [hk.channel_eq hlive]
    exact hk.lived.sound.ready

-- The host and the counter of made up touches use the same number, and the host uses it
-- again before it has given a single verdict.
def collided : Session :=
  ((((start 1).attempt (.touch (Channel.finger .pressed 1 10 0 1) 1)).attempt
    (.touch (Channel.finger .moved 1 50 10 1) 1)).attempt (.cancel (Duration.milliseconds 20) 1)).attempt
    (.touch (Channel.finger .pressed 1 10 30 1) 1)

theorem reached_collided : Reached (fun _ _ => True) collided :=
  ((((Reached.start {} ⟨1⟩).attempt trivial).attempt trivial).attempt trivial).attempt trivial

theorem perform_of_collided :
    Reached (fun _ _ => True) collided ∧ ¬ collided.numbers.Nodup ∧
      (∀ id consumed nonBlocking consumer,
        Op.transfer (.still (Duration.milliseconds 40)) 1 2 .cancelling ≠
          .ack id consumed nonBlocking consumer) ∧
      (∃ notices router, collided.router.perform
        (.transfer (.still (Duration.milliseconds 40)) 1 2 .cancelling) = .ok (notices, router)) ∧
      (collided.router.perform (.ack 7 false false 1)).toBool = false := by
  have hop : ∀ id consumed nonBlocking consumer,
      Op.transfer (.still (Duration.milliseconds 40)) 1 2 .cancelling ≠
        .ack id consumed nonBlocking consumer := by simp
  exact ⟨reached_collided, by decide +kernel, hop, (reached_collided.perform_of_ne_ack hop).1,
    by decide +kernel⟩

end Session

end TouchGestures
