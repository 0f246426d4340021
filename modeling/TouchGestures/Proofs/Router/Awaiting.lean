import Mathlib.Data.List.Nodup
import TouchGestures.Proofs.Channel.Reentry
import TouchGestures.Proofs.Router.Mirror

namespace TouchGestures.Session

open Channel (Chronicle Lived)
open Router (Handout mem_channels_iff)

variable {s s' : Session} {key : ChannelKey} {id : EventId}

-- The numbers of the touches of a channel that await a verdict, oldest first.
def awaitingOn (s : Session) (key : ChannelKey) : List EventId :=
  (s.awaiting.filter fun entry => entry.1 = key).map (·.2)

-- What the router, its channels and the host hold to be outstanding is the same. The
-- touches of channels that are gone are the orphans.
structure Consistent (s : Session) : Prop where
  pending : ∀ {key : ChannelKey} {channel : Channel}, s.router.channels[key]? = some channel →
    channel.queue.pendingIds = s.awaitingOn key
  numbered : ∀ {key : ChannelKey} {channel : Channel}, s.router.channels[key]? = some channel →
    ∀ p ∈ channel.queue.packets, p.eventId ∈ s.numbers
  awaited : ∀ entry ∈ s.awaiting, entry.2 ∈ s.numbers ∧ entry.1 < s.router.nextKey
  distinct : (s.awaiting.map (·.2)).Nodup
  events : ∀ {id : EventId} {key : ChannelKey}, s.router.events[id]? = some key ↔
    (key, id) ∈ s.awaiting ∧ key ∈ s.router.channels
  orphans : ∀ {id : EventId}, id ∈ s.router.orphans ↔
    ∃ key, (key, id) ∈ s.awaiting ∧ key ∉ s.router.channels

theorem consistent_start (settings : Settings) (ids : EventIds) :
    Consistent { router := { settings, ids } } where
  pending := by
    intro key channel hchannel
    simp at hchannel
  numbered := by
    intro key channel hchannel
    simp at hchannel
  awaited := by simp
  distinct := by simp
  events := by simp
  orphans := by simp

-- A step that gives no channel anything new to wait for.
theorem Consistent.keep {router : Router} {books : Books} {ids : List EventId}
    {handed : List Handout} (h : s.Consistent) (hevents : router.events = s.router.events)
    (horphans : router.orphans = s.router.orphans) (hnext : router.nextKey = s.router.nextKey)
    (hqueue : ∀ {key : ChannelKey} {channel : Channel}, router.channels[key]? = some channel →
      ∃ before, s.router.channels[key]? = some before ∧
        channel.queue.pendingIds = before.queue.pendingIds ∧
        ∀ p ∈ channel.queue.packets, p ∈ before.queue.packets ∨ p.eventId ∈ ids)
    (hlive : ∀ {key : ChannelKey}, key ∈ s.router.channels → key ∈ router.channels) :
    Consistent ⟨router, books, s.awaiting, s.numbers ++ ids, handed⟩ := by
  have hsame : ∀ {key : ChannelKey}, key ∈ router.channels ↔ key ∈ s.router.channels := by
    refine ⟨fun hmem => ?_, hlive⟩
    obtain ⟨channel, hchannel⟩ := mem_channels_iff.mp hmem
    obtain ⟨before, hbefore, -⟩ := hqueue hchannel
    exact mem_channels_iff.mpr ⟨before, hbefore⟩
  refine ⟨?_, ?_, ?_, h.distinct, ?_, ?_⟩
  · intro key channel hchannel
    obtain ⟨before, hbefore, hpending, -⟩ := hqueue hchannel
    exact hpending.trans (h.pending hbefore)
  · intro key channel hchannel p hp
    obtain ⟨before, hbefore, -, hpackets⟩ := hqueue hchannel
    rcases hpackets p hp with hp | hp
    · exact List.mem_append_left _ (h.numbered hbefore p hp)
    · exact List.mem_append_right _ hp
  · intro entry hentry
    obtain ⟨hnumber, hkey⟩ := h.awaited entry hentry
    exact ⟨List.mem_append_left _ hnumber, hnext ▸ hkey⟩
  · intro id key
    simp only [hevents, hsame]
    exact h.events
  · intro id
    simp only [horphans, hsame]
    exact h.orphans

-- The channel of the oldest touch that awaits a verdict, as long as it is there.
theorem Consistent.event_of_mem (h : s.Consistent) (hmem : (key, id) ∈ s.awaiting)
    (hlive : key ∈ s.router.channels) : s.router.events[id]? = some key ∧ id ∉ s.router.orphans := by
  refine ⟨h.events.mpr ⟨hmem, hlive⟩, fun horphan => ?_⟩
  obtain ⟨other, hother, hgone⟩ := h.orphans.mp horphan
  have hsame : (other, id) = (key, id) :=
    List.inj_on_of_nodup_map h.distinct hother hmem rfl
  cases hsame
  exact hgone hlive

section Keep

variable {consumer : ConsumerId} {router : Router} {books : Books}
  {handed : List Handout} {now : Time} {clock : Clock}

-- A step on one channel that answers made up touches at most.
theorem Consistent.answered {k k' : Chronicle} {ids : List EventId} {added : List Packet}
    (h : s.Consistent) (hevents : router.events = s.router.events)
    (horphans : router.orphans = s.router.orphans) (hnext : router.nextKey = s.router.nextKey)
    (hk : s.router.Accounts key k) (hk' : router.Accounts key k')
    (hothers : ∀ other, other ≠ key → router.channels[other]? = s.router.channels[other]?)
    {before : Chronicle} (hbefore : before.channel.queue.packets = k.channel.queue.packets)
    (hanswered : Chronicle.Answered before ids k' added) :
    Consistent ⟨router, books, s.awaiting, s.numbers ++ ids, handed⟩ := by
  refine h.keep hevents horphans hnext (fun {other channel} hchannel => ?_) fun {other} hlive => ?_
  · by_cases hother : other = key
    · subst hother
      obtain rfl := hk'.channel_eq hchannel
      refine ⟨k.channel, hk.live, ?_, fun p hp => ?_⟩
      · rw [hanswered.pendingIds]
        unfold Release.Queue.pendingIds
        rw [hbefore]
      · rw [← hbefore]
        exact hanswered.mem_packets hp
    · rw [hothers other hother] at hchannel
      exact ⟨channel, hchannel, rfl, fun p hp => .inl hp⟩
  · by_cases hother : other = key
    · subst hother
      exact mem_channels_iff.mpr ⟨_, hk'.live⟩
    · obtain ⟨channel, hchannel⟩ := mem_channels_iff.mp hlive
      exact mem_channels_iff.mpr ⟨channel, by rw [hothers other hother, hchannel]⟩

theorem Consistent.cancelChannel {result : Bool × List Notice × Router} (h : s.Consistent)
    (hm : s.router.Mirrors s.books)
    (hnodup : (s.numbers ++ s.router.numbersOf (.cancelChannel now consumer key)).Nodup)
    (hr : s.router.cancelChannel now consumer key = .ok result) :
    Consistent ⟨result.2.2, books, s.awaiting,
      s.numbers ++ s.router.numbersOf (.cancelChannel now consumer key), handed⟩ := by
  obtain ⟨_, _, _, hframe⟩ := Router.cancelChannel_frame hr
  cases hlive : s.router.channels[key]? with
  | none =>
    simp only [Router.cancelChannel, hlive] at hr
    cases hr
    exact h.keep rfl rfl rfl (fun {_ channel} hchannel =>
      ⟨channel, hchannel, rfl, fun _ hp => .inl hp⟩) id
  | some channel =>
    obtain ⟨k, -, hk⟩ := hm.book hlive
    obtain rfl := hk.channel_eq hlive
    have hnumbers : s.router.numbersOf (.cancelChannel now consumer key) =
        (k.channel.contacts.cancels now s.router.ids).1.map (·.id) := by
      simp [Router.numbersOf, hlive]
    rw [hnumbers] at hnodup ⊢
    obtain ⟨-, hids, hdisjoint⟩ := List.nodup_append.mp hnodup
    have hcontinues := Router.cancelChannel_continues hk hr
    obtain ⟨added, hanswered⟩ := Chronicle.exists_answered_injectAll hk.lived hids
      (fun p hp hmem => hdisjoint _ (h.numbered hlive p hp) _ hmem rfl)
      (s.router.handles consumer)
    exact h.answered (by rw [hframe]) (by rw [hframe]) (by rw [hframe]) hk hcontinues.accounts
      hcontinues.others rfl hanswered

theorem Consistent.reenter {contacts : List Contact} (h : s.Consistent)
    (hm : s.router.Mirrors s.books)
    (hnodup : (s.numbers ++ s.router.numbersOf (.reenter clock key contacts)).Nodup)
    (hr : s.router.reenter clock key contacts = .ok router) :
    Consistent ⟨router, books, s.awaiting,
      s.numbers ++ s.router.numbersOf (.reenter clock key contacts), handed⟩ := by
  obtain ⟨_, _, hframe⟩ := Router.reenter_frame hr
  cases hlive : s.router.channels[key]? with
  | none =>
    rw [Router.reenter_of_none hlive] at hr
    cases hr
    exact h.keep rfl rfl rfl (fun {_ channel} hchannel =>
      ⟨channel, hchannel, rfl, fun _ hp => .inl hp⟩) id
  | some channel =>
    obtain ⟨k, -, hk⟩ := hm.book hlive
    obtain rfl := hk.channel_eq hlive
    have hnumbers : s.router.numbersOf (.reenter clock key contacts) =
        (synthesizeAll .pressed clock contacts s.router.ids).1.map (·.id) := by
      simp [Router.numbersOf, mem_channels_iff.mpr ⟨_, hlive⟩]
    rw [hnumbers] at hnodup ⊢
    obtain ⟨-, hids, hdisjoint⟩ := List.nodup_append.mp hnodup
    obtain ⟨hk', hothers⟩ := Router.reenter_continues hk hr
    obtain ⟨added, hanswered, -⟩ := Chronicle.exists_answered_reenter hk.lived
      (fun t ht => kind_of_mem_synthesizeAll ht) hids
      fun p hp hmem => hdisjoint _ (h.numbered hlive p hp) _ hmem rfl
    refine h.answered (by rw [hframe]) (by rw [hframe]) (by rw [hframe]) hk hk' hothers ?_ hanswered
    rw [(Chronicle.next_forgetHistory k).1]
    rfl

-- A step after which all channels have the packets they had.
theorem Consistent.same_packets {ids : List EventId} (h : s.Consistent)
    (hevents : router.events = s.router.events)
    (horphans : router.orphans = s.router.orphans) (hnext : router.nextKey = s.router.nextKey)
    (hpackets : ∀ key : ChannelKey, (router.channels[key]?.map fun c => c.queue.packets) =
      s.router.channels[key]?.map fun c => c.queue.packets) :
    Consistent ⟨router, books, s.awaiting, s.numbers ++ ids, handed⟩ := by
  refine h.keep hevents horphans hnext (fun {key channel} hchannel => ?_) fun {key} hlive => ?_
  · have hsame := hpackets key
    rw [hchannel, Option.map_some] at hsame
    obtain ⟨before, hbefore, hpackets⟩ := Option.map_eq_some_iff.mp hsame.symm
    refine ⟨before, hbefore, ?_, fun p hp => .inl (hpackets ▸ hp)⟩
    unfold Release.Queue.pendingIds
    rw [hpackets]
  · obtain ⟨before, hbefore⟩ := mem_channels_iff.mp hlive
    have hsame := hpackets key
    rw [hbefore, Option.map_some] at hsame
    obtain ⟨channel, hchannel, -⟩ := Option.map_eq_some_iff.mp hsame
    exact mem_channels_iff.mpr ⟨channel, hchannel⟩

theorem Consistent.put {channel channel' : Channel} {ids : List EventId} (h : s.Consistent)
    (hlive : s.router.channels[key]? = some channel)
    (hpackets : channel'.queue.packets = channel.queue.packets) :
    Consistent ⟨s.router.put key channel', books, s.awaiting, s.numbers ++ ids, handed⟩ := by
  refine h.same_packets rfl rfl rfl fun other => ?_
  rw [Router.getElem?_channels_put]
  split
  · next hother =>
    subst hother
    simp [hlive, hpackets]
  · rfl

theorem Consistent.tick {handouts : List Handout} (h : s.Consistent)
    (hr : s.router.act (.tick now key) = .ok (handouts, router)) :
    Consistent ⟨router, books, s.awaiting, s.numbers ++ [], handed⟩ := by
  simp only [Router.act] at hr
  split at hr
  · cases hr
    exact h.same_packets rfl rfl rfl fun _ => rfl
  · next channel hlive =>
    obtain ⟨⟨gestures, channel'⟩, htick, heq⟩ := map_eq_ok.mp hr
    cases heq
    rw [Channel.tick_eq, Except.ok.injEq] at htick
    refine h.put hlive ?_
    rw [← congrArg Prod.snd htick]
    rfl

theorem Consistent.forgetHistory (h : s.Consistent) :
    Consistent ⟨s.router.forgetHistory key, books, s.awaiting, s.numbers ++ [], handed⟩ := by
  unfold Router.forgetHistory
  split
  · exact h.same_packets rfl rfl rfl fun _ => rfl
  · next channel hlive => exact h.put hlive rfl

theorem Consistent.configure {settings : Settings} (h : s.Consistent) :
    Consistent ⟨s.router.configure settings, books, s.awaiting, s.numbers ++ [], handed⟩ := by
  refine h.same_packets rfl rfl rfl fun key => ?_
  simp only [Router.configure, Std.ExtTreeMap.getElem?_map, Option.map_map]
  rfl

-- The touches of a channel that is removed are orphans from then on.
theorem Consistent.removeChannel (h : s.Consistent) :
    Consistent ⟨s.router.removeChannel key, s.books, s.awaiting, s.numbers, s.handed⟩ := by
  have hchannels : ∀ other : ChannelKey, (s.router.removeChannel key).channels[other]? =
      if key = other then none else s.router.channels[other]? := by
    intro other
    simp [Router.removeChannel, Std.ExtTreeMap.getElem?_erase]
  have hlive : ∀ other : ChannelKey, other ∈ (s.router.removeChannel key).channels ↔
      key ≠ other ∧ other ∈ s.router.channels := by
    intro other
    rw [mem_channels_iff, mem_channels_iff, hchannels]
    by_cases hother : key = other <;> simp [hother]
  refine ⟨?_, ?_, h.awaited, h.distinct, ?_, ?_⟩
  · intro other channel hchannel
    rw [hchannels] at hchannel
    split at hchannel
    · cases hchannel
    · exact h.pending hchannel
  · intro other channel hchannel
    rw [hchannels] at hchannel
    split at hchannel
    · cases hchannel
    · exact h.numbered hchannel
  · intro id other
    rw [Router.getElem?_events_removeChannel, hlive, Option.filter_eq_some_iff, h.events]
    simp only [decide_eq_true_eq, ne_eq]
    constructor
    · rintro ⟨⟨hmem, hlive⟩, hne⟩
      exact ⟨hmem, Ne.symm hne, hlive⟩
    · rintro ⟨hmem, hne, hlive⟩
      exact ⟨⟨hmem, hlive⟩, Ne.symm hne⟩
  · intro id
    rw [Router.mem_orphans_removeChannel, h.orphans, h.events]
    simp only [hlive]
    constructor
    · rintro (⟨other, hmem, hgone⟩ | ⟨hmem, hlive⟩)
      · exact ⟨other, hmem, fun hlive => hgone hlive.2⟩
      · exact ⟨key, hmem, fun hlive => hlive.1 rfl⟩
    · rintro ⟨other, hmem, hgone⟩
      by_cases hother : key = other
      · subst hother
        by_cases hlive : key ∈ s.router.channels
        · exact .inr ⟨hmem, hlive⟩
        · exact .inl ⟨key, hmem, hlive⟩
      · exact .inl ⟨other, hmem, fun hlive => hgone ⟨hother, hlive⟩⟩

theorem Consistent.reassign {source target : ConsumerId} (h : s.Consistent) :
    Consistent ⟨s.router.reassign source target key, books, s.awaiting, s.numbers ++ [], handed⟩ := by
  unfold Router.reassign
  simp only []
  split
  · exact h.same_packets rfl rfl rfl fun _ => rfl
  · next channel hlive =>
    refine h.same_packets rfl rfl rfl fun other => ?_
    rw [Router.getElem?_channels_put]
    split
    · next hother =>
      subst hother
      rw [hlive]
      rfl
    · rfl

theorem Consistent.displace {source target : ConsumerId} (h : s.Consistent) :
    Consistent ⟨s.router.displace source target key, books, s.awaiting, s.numbers ++ [], handed⟩ := by
  unfold Router.displace
  split
  · exact h.reassign
  · next displaced _ => exact h.removeChannel.reassign

theorem Consistent.forget (h : s.Consistent) :
    Consistent ⟨(s.router.forget consumer).2, books, s.awaiting, s.numbers ++ [], handed⟩ := by
  unfold Router.forget
  simp only []
  split
  · exact h.same_packets rfl rfl rfl fun _ => rfl
  · next key _ =>
    have hremoved : Consistent ⟨s.router.removeChannel key, s.books, s.awaiting, s.numbers,
      s.handed⟩ := h.removeChannel
    exact hremoved.same_packets rfl rfl rfl fun _ => rfl

end Keep

section Touch

variable {consumer : ConsumerId} {router : Router} {books : Books} {handed : List Handout} {t : Touch}

-- A channel that is new has seen nothing.
theorem Consistent.obtain (h : s.Consistent) :
    Consistent ⟨(s.router.obtain consumer).2, books, s.awaiting, s.numbers, handed⟩ := by
  unfold Router.obtain
  split
  · exact ⟨h.pending, h.numbered, h.awaited, h.distinct, h.events, h.orphans⟩
  · have hunseen : ∀ id, (s.router.nextKey, id) ∉ s.awaiting := by
      intro id hmem
      exact Nat.lt_irrefl _ (h.awaited _ hmem).2
    have hlive : ∀ (channel : Channel) (other : ChannelKey) (id : EventId),
        (other, id) ∈ s.awaiting →
          (other ∈ s.router.channels.insert s.router.nextKey channel ↔ other ∈ s.router.channels) := by
      intro channel other id hmem
      have hne : s.router.nextKey ≠ other := fun heq => hunseen id (heq ▸ hmem)
      simp [hne]
    refine ⟨?_, ?_, ?_, h.distinct, ?_, ?_⟩
    · intro other channel hchannel
      rw [Router.getElem?_channels_insert] at hchannel
      split at hchannel
      · next heq =>
        cases hchannel
        have hnone : (s.awaiting.filter fun entry => entry.1 = other) = [] := by
          rw [List.filter_eq_nil_iff]
          rintro ⟨key, id⟩ hmem heq'
          obtain rfl : key = other := by simpa using heq'
          exact hunseen id (heq ▸ hmem)
        simp [awaitingOn, hnone, Release.Queue.pendingIds, Channel.ofSettings, Pipeline.ofSettings]
      · exact h.pending hchannel
    · intro other channel hchannel
      rw [Router.getElem?_channels_insert] at hchannel
      split at hchannel
      · cases hchannel
        simp [Channel.ofSettings, Pipeline.ofSettings]
      · exact h.numbered hchannel
    · intro entry hentry
      obtain ⟨hnumber, hkey⟩ := h.awaited entry hentry
      exact ⟨hnumber, Nat.lt_succ_of_lt hkey⟩
    · intro id other
      rw [h.events]
      exact and_congr_right fun hmem => (hlive _ other id hmem).symm
    · intro id
      rw [h.orphans]
      exact exists_congr fun other => and_congr_right fun hmem => not_congr (hlive _ other id hmem).symm

theorem awaitingOn_append {numbers : List EventId} (other : ChannelKey) :
    awaitingOn ⟨router, books, s.awaiting ++ [(key, id)], numbers, handed⟩ other =
      s.awaitingOn other ++ if key = other then [id] else [] := by
  unfold awaitingOn
  rw [List.filter_append, List.map_append]
  by_cases hother : key = other <;> simp [hother]

-- A touch with a new number that a channel has seen is found among those that it awaits.
theorem Consistent.events_append {number : EventId} (h : s.Consistent) (hfresh : number ∉ s.numbers)
    (hlive : key ∈ s.router.channels) (id : EventId) (other : ChannelKey) :
    (if number = id then some key else s.router.events[id]?) = some other ↔
      (other, id) ∈ s.awaiting ++ [(key, number)] ∧ other ∈ s.router.channels := by
  by_cases hid : number = id
  · subst hid
    have hunseen : (other, number) ∉ s.awaiting := fun hmem => hfresh (h.awaited _ hmem).1
    rw [if_pos rfl, Option.some.injEq]
    constructor
    · rintro rfl
      exact ⟨List.mem_append_right _ List.mem_cons_self, hlive⟩
    · rintro ⟨hmem, -⟩
      obtain ⟨rfl, -⟩ : other = key ∧ number = number := by simpa [hunseen] using hmem
      rfl
  · rw [if_neg hid, h.events]
    simp [Ne.symm hid]

-- An accepted touch awaits a verdict on its channel.
theorem Consistent.accept {channel channel' : Channel} {p : Packet} (h : s.Consistent)
    (hnodup : (s.numbers ++ [t.id]).Nodup) (hlive : s.router.channels[key]? = some channel)
    (hkey : key < s.router.nextKey) (hid : p.eventId = t.id) (hpending : p.isPending = true)
    (hpackets : channel'.queue.packets = channel.queue.packets ++ [p])
    (hchannels : ∀ other : ChannelKey, router.channels[other]? =
      if key = other then some channel' else s.router.channels[other]?)
    (hevents : router.events = s.router.events.insert t.id key)
    (horphans : router.orphans = s.router.orphans) (hnext : router.nextKey = s.router.nextKey) :
    Consistent ⟨router, books, s.awaiting ++ [(key, t.id)], s.numbers ++ [t.id], handed⟩ := by
  have hfresh : t.id ∉ s.numbers := by
    intro hmem
    exact (List.nodup_append.mp hnodup).2.2 _ hmem _ (by simp) rfl
  have hsame : ∀ other : ChannelKey, other ∈ router.channels ↔ other ∈ s.router.channels := by
    intro other
    rw [mem_channels_iff, mem_channels_iff, hchannels]
    by_cases hother : key = other
    · subst hother
      simp [hlive]
    · simp [hother]
  refine ⟨?_, ?_, ?_, ?_, ?_, ?_⟩
  · intro other after hafter
    rw [hchannels] at hafter
    rw [awaitingOn_append]
    split at hafter
    · next hother =>
      subst hother
      cases hafter
      rw [Release.Queue.pendingIds, hpackets, List.filter_append, List.map_append,
        List.filter_cons_of_pos hpending, if_pos rfl, ← h.pending hlive, ← hid]
      rfl
    · next hother => rw [if_neg hother, List.append_nil, h.pending hafter]
  · intro other after hafter q hq
    rw [hchannels] at hafter
    split at hafter
    · cases hafter
      rw [hpackets] at hq
      rcases List.mem_append.mp hq with hq | hq
      · exact List.mem_append_left _ (h.numbered hlive q hq)
      · rw [List.mem_singleton.mp hq, hid]
        simp
    · exact List.mem_append_left _ (h.numbered hafter q hq)
  · intro entry hentry
    simp only [hnext]
    rcases List.mem_append.mp hentry with hentry | hentry
    · obtain ⟨hnumber, hkey⟩ := h.awaited entry hentry
      exact ⟨List.mem_append_left _ hnumber, hkey⟩
    · rw [List.mem_singleton.mp hentry]
      exact ⟨by simp, hkey⟩
  · rw [List.map_append, List.nodup_append]
    refine ⟨h.distinct, by simp, ?_⟩
    intro id hid other hother heq
    obtain ⟨entry, hentry, rfl⟩ := List.mem_map.mp hid
    obtain rfl : other = t.id := by simpa using hother
    exact hfresh (heq ▸ (h.awaited entry hentry).1)
  · intro id other
    have hget : router.events[id]? = if t.id = id then some key else s.router.events[id]? := by
      simp [hevents, Std.ExtTreeMap.getElem?_insert]
    rw [hget, hsame]
    exact h.events_append hfresh (mem_channels_iff.mpr ⟨_, hlive⟩) id other
  · intro id
    simp only [horphans, hsame]
    rw [h.orphans]
    refine exists_congr fun other => ?_
    constructor
    · rintro ⟨hmem, hgone⟩
      exact ⟨List.mem_append_left _ hmem, hgone⟩
    · rintro ⟨hmem, hgone⟩
      rcases List.mem_append.mp hmem with hmem | hmem
      · exact ⟨hmem, hgone⟩
      · obtain ⟨rfl, rfl⟩ : other = key ∧ id = t.id := by simpa using hmem
        exact absurd (mem_channels_iff.mpr ⟨_, hlive⟩) hgone

theorem Consistent.touch {result : TouchResult} (h : s.Consistent)
    (hm : s.router.Mirrors s.books) (hnodup : (s.numbers ++ [t.id]).Nodup)
    (hr : s.router.touch t consumer = .ok (result, router)) :
    Consistent ⟨router, books,
      if result.accepted then s.awaiting ++ [((s.router.obtain consumer).1, t.id)] else s.awaiting,
      s.numbers ++ [t.id], handed⟩ := by
  have hopen : Consistent ⟨(s.router.obtain consumer).2, s.router.enroll s.books consumer,
    s.awaiting, s.numbers, s.handed⟩ := h.obtain
  have hmirror : (s.router.obtain consumer).2.Mirrors (s.router.enroll s.books consumer) := hm.obtain
  obtain ⟨-, rfl, rfl⟩ | ⟨channel, channel', hlive, htouch, hr'⟩ := Router.touch_cases hr
  · exact hopen.keep rfl rfl rfl (fun {_ channel} hchannel =>
      ⟨channel, hchannel, rfl, fun _ hp => .inl hp⟩) id
  · obtain ⟨k, -, hk⟩ := hmirror.book hlive
    obtain rfl := hk.channel_eq hlive
    cases haccepted : result.accepted with
    | false =>
      obtain ⟨hqueue, -⟩ := Chronicle.queue_of_rejected hk.lived.sound htouch haccepted
      rw [haccepted] at hr'
      subst hr'
      exact hopen.put hlive (by rw [hqueue])
    | true =>
      obtain ⟨p, hpending, hid, -, -, hqueue⟩ :=
        Chronicle.packet_of_accepted hk.lived.sound htouch haccepted
      have hkey : (s.router.obtain consumer).1 < (s.router.obtain consumer).2.nextKey := by
        refine Nat.lt_of_not_le fun hle => ?_
        rw [hmirror.unopened hle] at hlive
        cases hlive
      rw [haccepted, if_pos rfl] at hr'
      simp only [if_true]
      refine hopen.accept hnodup hlive hkey hid hpending (by rw [hqueue]) (fun other => ?_) ?_ ?_ ?_
      · rw [hr']
        exact (Router.getElem?_channels_bind t other).trans Router.getElem?_channels_put
      · rw [hr']
      · rw [hr']
        unfold Router.bind
        split <;> rfl
      · rw [hr']
        unfold Router.bind
        split <;> rfl

end Touch

end TouchGestures.Session
