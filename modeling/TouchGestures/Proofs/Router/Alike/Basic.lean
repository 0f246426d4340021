import TouchGestures.Proofs.Channel.Renumber
import TouchGestures.Proofs.Router.Everywhere

namespace TouchGestures

namespace Router

open Channel (ofSettings)

variable {ρ : Renumbering} {r r₁ r' r₁' : Router} {books : Books} {c d : ConsumerId}
  {key key' : ChannelKey} {channel channel' : Channel} {now : Time}
  {log : List (EventId × ConsumerId)}

-- What a router keeps for one consumer is what another one does, up to the numbers of touches.
-- The touches of the log that were for the consumer have the same numbers in both.
structure Alike (ρ : Renumbering) (c : ConsumerId) (log : List (EventId × ConsumerId))
    (r r' : Router) : Prop where
  settings : r'.settings = r.settings
  helpers : r'.helpers = r.helpers
  nextHelper : r'.nextHelper = r.nextHelper
  channel : r'.channel? c = (r.channel? c).map (·.renumber ρ)
  events : ∀ {id : EventId}, (id, c) ∈ log → (id ∈ r'.events ↔ id ∈ r.events)
  orphans : ∀ {id : EventId}, (id, c) ∈ log → (id ∈ r'.orphans ↔ id ∈ r.orphans)

-- The touches of the log that were for a consumer are filed with its channel, if at all.
structure Filed (c : ConsumerId) (log : List (EventId × ConsumerId)) (r : Router) : Prop where
  owner : ∀ {id : EventId} {key : ChannelKey}, (id, c) ∈ log → r.events[id]? = some key →
    r.owners[c]? = some key

-- The channel in which a touch for a consumer ends up.
def ownChannel (r : Router) (c : ConsumerId) : Channel :=
  (r.channel? c).getD (ofSettings c r.settings.channel)

theorem channel?_of_live (howner : r.owners[c]? = some key)
    (hlive : r.channels[key]? = some channel) : r.channel? c = some channel :=
  channel?_eq_some_iff.mpr ⟨key, howner, hlive⟩

theorem channel?_put (howner : r.owners[c]? = some key) :
    (r.put key channel).channel? c = some channel :=
  channel?_of_live howner (by simp [put])

theorem channel?_congr (howner : r₁.owners[c]? = r.owners[c]?)
    (hchannel : ∀ key, r.owners[c]? = some key → r₁.channels[key]? = r.channels[key]?) :
    r₁.channel? c = r.channel? c := by
  unfold channel?
  rw [howner]
  cases hown : r.owners[c]? with
  | none => rfl
  | some key => exact hchannel key hown

-- A consumer that owns a channel has it.
theorem Owned.channel?_eq_none_iff (h : r.Owned) :
    r.channel? c = none ↔ r.owners[c]? = none := by
  unfold channel?
  cases howner : r.owners[c]? with
  | none => simp
  | some key =>
    obtain ⟨channel, hlive⟩ := mem_channels_iff.mp (h.live howner)
    simp [hlive]

theorem Alike.owner (h : r.Alike ρ c log r') (howned : r.Owned) (howned' : r'.Owned) :
    r'.owners[c]? = none ↔ r.owners[c]? = none := by
  rw [← howned.channel?_eq_none_iff, ← howned'.channel?_eq_none_iff, h.channel,
    Option.map_eq_none_iff]

theorem Alike.live (h : r.Alike ρ c log r') (howner : r.owners[c]? = some key)
    (hlive : r.channels[key]? = some channel) :
    ∃ key', r'.owners[c]? = some key' ∧ r'.channels[key']? = some (channel.renumber ρ) := by
  refine channel?_eq_some_iff.mp ?_
  rw [h.channel, channel?_of_live howner hlive, Option.map_some]

theorem Alike.ownChannel (h : r.Alike ρ c log r') :
    r'.ownChannel c = (r.ownChannel c).renumber ρ := by
  unfold Router.ownChannel
  rw [h.channel, h.settings]
  cases r.channel? c <;> rfl

-- Nothing that a router keeps for a consumer changes, nor what it has for everyone.
structure Spares (c : ConsumerId) (log : List (EventId × ConsumerId)) (r r₁ : Router) : Prop where
  settings : r₁.settings = r.settings
  helpers : r₁.helpers = r.helpers
  nextHelper : r₁.nextHelper = r.nextHelper
  channel : r₁.channel? c = r.channel? c
  events : ∀ {id : EventId}, (id, c) ∈ log → (id ∈ r₁.events ↔ id ∈ r.events)
  orphans : ∀ {id : EventId}, (id, c) ∈ log → (id ∈ r₁.orphans ↔ id ∈ r.orphans)

theorem Alike.spares (h : r.Alike ρ c log r') (hspares : r.Spares c log r₁) :
    r₁.Alike ρ c log r' where
  settings := h.settings.trans hspares.settings.symm
  helpers := h.helpers.trans hspares.helpers.symm
  nextHelper := h.nextHelper.trans hspares.nextHelper.symm
  channel := by rw [h.channel, hspares.channel]
  events := fun hid => (h.events hid).trans (hspares.events hid).symm
  orphans := fun hid => (h.orphans hid).trans (hspares.orphans hid).symm

theorem Alike.of_log {log' : List (EventId × ConsumerId)} (h : r.Alike ρ c log r')
    (hlog : ∀ {id : EventId}, (id, c) ∈ log' → (id, c) ∈ log) : r.Alike ρ c log' r' where
  settings := h.settings
  helpers := h.helpers
  nextHelper := h.nextHelper
  channel := h.channel
  events := fun hid => h.events (hlog hid)
  orphans := fun hid => h.orphans (hlog hid)

theorem Filed.of_subset (h : r.Filed c log) (howners : r₁.owners = r.owners)
    (hsubset : ∀ {id : EventId} {key : ChannelKey}, r₁.events[id]? = some key →
      r.events[id]? = some key) : r₁.Filed c log where
  owner := fun hmem hevent => howners ▸ h.owner hmem (hsubset hevent)

section Touch

variable {t : Touch} {result : TouchResult}

def store (r : Router) (c : ConsumerId) (t : Touch) (result : TouchResult) (channel : Channel) :
    Router :=
  let stored := (r.obtain c).2.put (r.obtain c).1 channel
  if result.accepted then
    { stored.bind t c with events := stored.events.insert t.id (r.obtain c).1 }
  else stored

theorem obtain_live (h : r.Owned) :
    (r.obtain c).2.channels[(r.obtain c).1]? = some (r.ownChannel c) := by
  unfold ownChannel
  cases howner : r.owners[c]? with
  | none =>
    rw [h.channel?_eq_none_iff.mpr howner]
    simp [obtain, howner]
  | some key =>
    obtain ⟨channel, hlive⟩ := mem_channels_iff.mp (h.live howner)
    rw [channel?_of_live howner hlive]
    simp [obtain, howner, hlive]

theorem touch_eq (h : r.Owned) :
    r.touch t c = ((r.ownChannel c).touch t).map fun (result, channel) =>
      (result, r.store c t result channel) := by
  unfold touch
  simp only [obtain_live h]
  cases (r.ownChannel c).touch t with
  | error violation => rfl
  | ok answer =>
    obtain ⟨result, channel⟩ := answer
    cases haccepted : result.accepted <;> simp [store, haccepted]

theorem obtain_frame (r : Router) (c : ConsumerId) :
    ∃ channels owners nextKey, (r.obtain c).2 = { r with channels, owners, nextKey } := by
  unfold obtain
  split <;> exact ⟨_, _, _, rfl⟩

-- Only owners, channels, bindings and events are concerned.
theorem store_frame (r : Router) (c : ConsumerId) (t : Touch) (result : TouchResult)
    (channel : Channel) :
    ∃ owners channels bindings nextKey, r.store c t result channel =
      { r with
        owners, channels, bindings, nextKey
        events :=
          if result.accepted then r.events.insert t.id (r.obtain c).1 else r.events } := by
  obtain ⟨channels, owners, nextKey, hobtain⟩ := obtain_frame r c
  obtain ⟨bindings, hbind⟩ := bind_frame ((r.obtain c).2.put (r.obtain c).1 channel) t c
  unfold store
  simp only [hbind]
  cases result.accepted <;> simp only [hobtain] <;> exact ⟨_, _, _, _, rfl⟩

theorem owners_store : (r.store c t result channel).owners = (r.obtain c).2.owners := by
  obtain ⟨bindings, hbind⟩ := bind_frame ((r.obtain c).2.put (r.obtain c).1 channel) t c
  unfold store
  simp only [hbind]
  split <;> rfl

theorem channels_store :
    (r.store c t result channel).channels = (r.obtain c).2.channels.insert (r.obtain c).1 channel := by
  obtain ⟨bindings, hbind⟩ := bind_frame ((r.obtain c).2.put (r.obtain c).1 channel) t c
  unfold store
  simp only [hbind]
  split <;> rfl

theorem mem_events_store {id : EventId} :
    id ∈ (r.store c t result channel).events ↔
      id ∈ r.events ∨ result.accepted = true ∧ id = t.id := by
  obtain ⟨_, _, _, _, hstore⟩ := store_frame r c t result channel
  rw [hstore]
  cases result.accepted <;> simp [Std.ExtTreeMap.mem_insert, or_comm, @eq_comm _ id t.id]

theorem channel?_store : (r.store c t result channel).channel? c = some channel := by
  have howner : (r.store c t result channel).owners[c]? = some (r.obtain c).1 := by
    rw [owners_store, getElem?_owners_obtain, if_pos rfl]
  exact channel?_of_live howner (by simp [channels_store])

theorem channel?_store_of_ne (howned : r.Owned) (hnew : r.nextKey ∉ r.channels) (hne : d ≠ c) :
    (r.store d t result channel).channel? c = r.channel? c := by
  have hobtained : (r.obtain d).2.Owned := howned.obtain hnew
  have howner : (r.obtain d).2.owners[c]? = r.owners[c]? := by
    rw [getElem?_owners_obtain, if_neg hne]
  refine channel?_congr (by rw [owners_store, howner]) fun key hown => ?_
  have hother : (r.obtain d).1 ≠ key := by
    rintro rfl
    refine hne (hobtained.single ?_ (howner.trans hown))
    rw [getElem?_owners_obtain, if_pos rfl]
  have hopened : (r.obtain d).2.channels[key]? = r.channels[key]? := by
    unfold obtain at hother ⊢
    split at hother
    · rfl
    · simp [Std.ExtTreeMap.getElem?_insert, hother]
  rw [channels_store, getElem?_channels_insert, if_neg hother, hopened]

-- A touch for a consumer fares the same where what is kept for the consumer is the same.
theorem Alike.touch (h : r.Alike ρ c log r') (howned : r.Owned) (howned' : r'.Owned)
    (hid : ρ t.id = t.id) (hevents : t.id ∉ r.events ∧ t.id ∉ r'.events)
    (horphans : t.id ∉ r.orphans ∧ t.id ∉ r'.orphans)
    (htouch : r.touch t c = .ok (result, r₁)) :
    ∃ r₁', r'.touch t c = .ok (result, r₁') ∧ r₁.Alike ρ c (log ++ [(t.id, c)]) r₁' := by
  rw [touch_eq howned] at htouch
  obtain ⟨⟨answer, channel⟩, htouched, heq⟩ := map_eq_ok.mp htouch
  cases heq
  have hsame : t.renumber ρ = t := by simp [Touch.renumber, hid]
  have htouched' := Channel.touch_renumber (ρ := ρ) (r.ownChannel c) t
  rw [hsame, htouched, ok_map] at htouched'
  refine ⟨r'.store c t result (channel.renumber ρ), ?_, ?_⟩
  · rw [touch_eq howned', h.ownChannel, htouched']
    rfl
  · obtain ⟨_, _, _, _, hstore⟩ := store_frame r c t result channel
    obtain ⟨_, _, _, _, hstore'⟩ := store_frame r' c t result (channel.renumber ρ)
    refine ⟨?_, ?_, ?_, ?_, fun {id} hmem => ?_, fun {id} hmem => ?_⟩
    · rw [hstore, hstore', h.settings]
    · rw [hstore, hstore', h.helpers]
    · rw [hstore, hstore', h.nextHelper]
    · rw [channel?_store, channel?_store, Option.map_some]
    · rw [mem_events_store, mem_events_store]
      rcases List.mem_append.mp hmem with hmem | hmem
      · rw [h.events hmem]
      · cases List.mem_singleton.mp hmem
        simp [hevents.1, hevents.2]
    · rw [hstore, hstore']
      rcases List.mem_append.mp hmem with hmem | hmem
      · exact h.orphans hmem
      · cases List.mem_singleton.mp hmem
        exact iff_of_false horphans.2 horphans.1

-- A touch for another consumer does not concern this one.
theorem spares_touch (hm : r.Mirrors books) (howned : r.Owned) (hne : d ≠ c)
    (hnew : (t.id, c) ∉ log) (htouch : r.touch t d = .ok (result, r₁)) : r.Spares c log r₁ := by
  rw [touch_eq howned] at htouch
  obtain ⟨⟨answer, channel⟩, -, heq⟩ := map_eq_ok.mp htouch
  cases heq
  obtain ⟨_, _, _, _, hstore⟩ := store_frame r d t result channel
  refine ⟨by rw [hstore], by rw [hstore], by rw [hstore],
    channel?_store_of_ne howned hm.nextKey_notMem hne, fun {id} hmem => ?_, fun _ => by rw [hstore]⟩
  rw [mem_events_store, or_iff_left]
  rintro ⟨-, rfl⟩
  exact hnew hmem

theorem Filed.touch (h : r.Filed c log) (hnew : ∀ consumer, (t.id, consumer) ∉ log)
    (hevents : t.id ∉ r.events) (howned : r.Owned) (htouch : r.touch t d = .ok (result, r₁)) :
    r₁.Filed c (log ++ [(t.id, d)]) := by
  rw [touch_eq howned] at htouch
  obtain ⟨⟨answer, channel⟩, -, heq⟩ := map_eq_ok.mp htouch
  cases heq
  obtain ⟨_, _, _, _, hstore⟩ := store_frame r d t result channel
  constructor
  intro id key hmem hevent
  rw [owners_store, getElem?_owners_obtain]
  have hget : (r.store d t result channel).events[id]? =
      if result.accepted = true ∧ t.id = id then some (r.obtain d).1 else r.events[id]? := by
    rw [hstore]
    cases result.accepted <;> simp [Std.ExtTreeMap.getElem?_insert]
  rw [hget] at hevent
  by_cases hid : id = t.id
  · subst hid
    have hnone : r.events[t.id]? = none := by simpa using hevents
    rcases List.mem_append.mp hmem with hmem | hmem
    · exact absurd hmem (hnew c)
    · cases List.mem_singleton.mp hmem
      rw [if_pos rfl]
      split at hevent
      · exact hevent
      · rw [hnone] at hevent
        cases hevent
  · rw [if_neg fun hboth => hid hboth.2.symm] at hevent
    have hmem : (id, c) ∈ log := by
      rcases List.mem_append.mp hmem with hmem | hmem
      · exact hmem
      · cases List.mem_singleton.mp hmem
        exact absurd rfl hid
    have howner := h.owner hmem hevent
    split
    · next hsame =>
      subst hsame
      rw [(obtain_of_some howner (fun _ => none)).1]
    · exact howner

end Touch

section Ack

variable {id : EventId} {consumed nonBlocking : Bool} {gestures : List Gesture}

theorem Filed.awaiting? (h : r.Filed c log) (hmem : (id, c) ∈ log) :
    r.awaiting? id c = r.owners[c]? := by
  unfold Router.awaiting?
  cases hevent : r.events[id]? with
  | none => rfl
  | some key =>
    rw [h.owner hmem hevent]
    rfl

-- A verdict of a consumer on a touch of its own finds its channel, unless the touch is an
-- orphan.
theorem ack_eq (h : r.Filed c log) (howned : r.Owned) (hmem : (id, c) ∈ log) :
    r.ack id consumed nonBlocking c =
      if id ∈ r.orphans then .ok ([], { r with orphans := r.orphans.erase id })
      else
        match r.owners[c]?, r.channel? c with
        | some key, some channel =>
          (channel.ack id consumed nonBlocking).map fun channel =>
            (channel.released, { r with events := r.events.erase id }.put key channel.drain.2)
        | _, _ => .ok ([], { r with events := r.events.erase id }) := by
  unfold Router.ack
  simp only [h.awaiting? hmem, Std.ExtTreeSet.contains_iff_mem]
  split
  · rfl
  · cases howner : r.owners[c]? with
    | none => rfl
    | some key =>
      obtain ⟨channel, hlive⟩ := mem_channels_iff.mp (howned.live howner)
      simp only [hlive, channel?_of_live howner hlive]
      cases channel.ack id consumed nonBlocking <;> rfl

theorem Alike.ack (h : r.Alike ρ c log r') (howned : r.Owned) (howned' : r'.Owned)
    (hfiled : r.Filed c log) (hfiled' : r'.Filed c log) (hmem : (id, c) ∈ log) (hid : ρ id = id)
    (hack : r.ack id consumed nonBlocking c = .ok (gestures, r₁)) :
    ∃ r₁', r'.ack id consumed nonBlocking c = .ok (gestures.map (·.renumber ρ), r₁') ∧
      r₁.Alike ρ c log r₁' := by
  rw [ack_eq hfiled howned hmem] at hack
  rw [ack_eq hfiled' howned' hmem]
  simp only [h.orphans hmem]
  split at hack
  · next horphan =>
    cases hack
    rw [if_pos horphan]
    refine ⟨_, rfl, h.settings, h.helpers, h.nextHelper, h.channel, h.events, fun {other} hother => ?_⟩
    simp [h.orphans hother]
  · next horphan =>
    rw [if_neg horphan]
    have hevents : ∀ {other : EventId}, (other, c) ∈ log →
        (other ∈ r'.events.erase id ↔ other ∈ r.events.erase id) := fun hother => by
      simp [Std.ExtTreeMap.mem_erase, h.events hother]
    cases howner : r.owners[c]? with
    | none =>
      simp only [howner] at hack
      cases hack
      rw [(h.owner howned howned').mpr howner]
      exact ⟨_, rfl, h.settings, h.helpers, h.nextHelper, h.channel, hevents, h.orphans⟩
    | some key =>
      obtain ⟨channel, hlive⟩ := mem_channels_iff.mp (howned.live howner)
      obtain ⟨key', howner', hlive'⟩ := h.live howner hlive
      simp only [howner, channel?_of_live howner hlive] at hack
      obtain ⟨acked, hacked, heq⟩ := map_eq_ok.mp hack
      cases heq
      have hacked' := Channel.ack_renumber (ρ := ρ) channel hacked
      rw [hid] at hacked'
      simp only [howner', channel?_of_live howner' hlive', hacked', ok_map]
      refine ⟨_, rfl, h.settings, h.helpers, h.nextHelper, ?_, hevents, h.orphans⟩
      rw [channel?_put (r := { r with events := r.events.erase id }) howner,
        channel?_put (r := { r' with events := r'.events.erase id }) howner']
      rfl

-- A verdict of another consumer on a touch of its own stays with that consumer.
theorem spares_ack (howned : r.Owned) (hne : d ≠ c) (hfiled : r.Filed d log) (hmem : (id, d) ∈ log)
    (hother : (id, c) ∉ log) (hack : r.ack id consumed nonBlocking d = .ok (gestures, r₁)) :
    r.Spares c log r₁ := by
  have hdistinct : ∀ {other : EventId}, (other, c) ∈ log → id ≠ other := by
    rintro other hmem rfl
    exact hother hmem
  have hevents : ∀ {other : EventId}, (other, c) ∈ log →
      (other ∈ r.events.erase id ↔ other ∈ r.events) := fun hlogged => by
    simp [Std.ExtTreeMap.mem_erase, hdistinct hlogged]
  rw [ack_eq hfiled howned hmem] at hack
  split at hack
  · cases hack
    refine ⟨rfl, rfl, rfl, rfl, fun _ => Iff.rfl, fun hlogged => ?_⟩
    simp [Std.ExtTreeSet.mem_erase, hdistinct hlogged]
  · split at hack
    · next key channel howner hchannel =>
      obtain ⟨acked, -, heq⟩ := map_eq_ok.mp hack
      cases heq
      refine ⟨rfl, rfl, rfl, channel?_congr rfl fun own hown => ?_, hevents, fun _ => Iff.rfl⟩
      rw [getElem?_channels_put, if_neg]
      rintro rfl
      exact hne (howned.single howner hown)
    · cases hack
      exact ⟨rfl, rfl, rfl, rfl, hevents, fun _ => Iff.rfl⟩

theorem Filed.ack (h : r.Filed c log) (hack : r.ack id consumed nonBlocking d = .ok (gestures, r₁)) :
    r₁.Filed c log := by
  have herased : ∀ {other : EventId} {key : ChannelKey},
      (r.events.erase id)[other]? = some key → r.events[other]? = some key := by
    intro other key hevent
    rw [Std.ExtTreeMap.getElem?_erase] at hevent
    split at hevent
    · cases hevent
    · exact hevent
  obtain ⟨-, -, rfl⟩ | ⟨-, -, -, rfl⟩ | ⟨_, _, _, -, -, -, -, -, rfl⟩ := ack_cases hack
  · exact h.of_subset rfl fun hevent => hevent
  · exact h.of_subset rfl herased
  · exact h.of_subset rfl herased

end Ack

section Forget

variable {id : EventId}

theorem forget_frame (r : Router) (c : ConsumerId) :
    ∃ channels owners bindings events orphans,
      (r.forget c).2 = { r with channels, owners, bindings, events, orphans } := by
  unfold forget
  dsimp only
  split <;> exact ⟨_, _, _, _, _, rfl⟩

theorem owners_forget (other : ConsumerId) :
    (r.forget c).2.owners[other]? = if other = c then none else r.owners[other]? := by
  refine Option.ext fun key => ?_
  rw [owner_forget_iff]
  by_cases hother : other = c <;> simp [hother]

-- When a consumer is forgotten, its touches that await a verdict become orphans.
theorem Filed.mem_forget (h : r.Filed c log) (hmem : (id, c) ∈ log) :
    id ∉ (r.forget c).2.events ∧
      (id ∈ (r.forget c).2.orphans ↔ id ∈ r.orphans ∨ id ∈ r.events) := by
  rw [Std.ExtTreeMap.mem_iff_isSome_getElem?, Std.ExtTreeMap.mem_iff_isSome_getElem?]
  cases howner : r.owners[c]? with
  | none =>
    have hnone : r.events[id]? = none := Option.eq_none_iff_forall_ne_some.mpr fun key hevent => by
      rw [h.owner hmem hevent] at howner
      cases howner
    simp [forget, howner, hnone]
  | some key =>
    simp only [forget, howner, getElem?_events_removeChannel, mem_orphans_removeChannel]
    cases hevent : r.events[id]? with
    | none => simp
    | some seen =>
      have hseen := (h.owner hmem hevent).symm.trans howner
      cases hseen
      simp

theorem Alike.forget (h : r.Alike ρ c log r') (hfiled : r.Filed c log) (hfiled' : r'.Filed c log) :
    (r.forget c).2.Alike ρ c log (r'.forget c).2 := by
  have hgone : ∀ r : Router, (r.forget c).2.channel? c = none := fun r => by
    simp [channel?, owners_forget]
  obtain ⟨_, _, _, _, _, hframe⟩ := forget_frame r c
  obtain ⟨_, _, _, _, _, hframe'⟩ := forget_frame r' c
  refine ⟨?_, ?_, ?_, ?_, fun hmem => ?_, fun hmem => ?_⟩
  · rw [hframe, hframe', h.settings]
  · rw [hframe, hframe', h.helpers]
  · rw [hframe, hframe', h.nextHelper]
  · rw [hgone, hgone, Option.map_none]
  · exact iff_of_false (hfiled'.mem_forget hmem).1 (hfiled.mem_forget hmem).1
  · rw [(hfiled.mem_forget hmem).2, (hfiled'.mem_forget hmem).2, h.orphans hmem, h.events hmem]

theorem spares_forget (howned : r.Owned) (hne : d ≠ c) (hfiled : r.Filed c log) :
    r.Spares c log (r.forget d).2 := by
  cases howner : r.owners[d]? with
  | none =>
    simp only [forget, howner]
    exact ⟨rfl, rfl, rfl, rfl, fun _ => Iff.rfl, fun _ => Iff.rfl⟩
  | some key =>
    have hevent : ∀ {id : EventId}, (id, c) ∈ log → r.events[id]? ≠ some key := fun hmem hevent =>
      hne (howned.single howner (hfiled.owner hmem hevent))
    have hchannel : (r.forget d).2.channel? c = r.channel? c := by
      refine channel?_congr (by rw [owners_forget, if_neg hne.symm]) fun own hown => ?_
      simp only [forget, howner, removeChannel, Std.ExtTreeMap.getElem?_erase]
      rw [if_neg]
      simp only [Std.LawfulEqCmp.compare_eq_iff_eq]
      rintro rfl
      exact hne (howned.single howner hown)
    obtain ⟨_, _, _, _, _, hframe⟩ := forget_frame r d
    refine ⟨by rw [hframe], by rw [hframe], by rw [hframe], hchannel, fun {id} hmem => ?_,
      fun {id} hmem => ?_⟩
    · rw [Std.ExtTreeMap.mem_iff_isSome_getElem?, Std.ExtTreeMap.mem_iff_isSome_getElem?]
      simp only [forget, howner, getElem?_events_removeChannel]
      cases hseen : r.events[id]? with
      | none => rfl
      | some seen =>
        have hother : seen ≠ key := fun heq => hevent hmem (heq ▸ hseen)
        simp [hother]
    · simp only [forget, howner, mem_orphans_removeChannel]
      exact or_iff_left (hevent hmem)

theorem Filed.forget (h : r.Filed c log) (d : ConsumerId) : (r.forget d).2.Filed c log where
  owner := by
    intro id key hmem hevent
    rw [owners_forget]
    cases howner : r.owners[d]? with
    | none =>
      simp only [Router.forget, howner] at hevent
      have hown := h.owner hmem hevent
      rw [if_neg, hown]
      rintro rfl
      rw [howner] at hown
      cases hown
    | some own =>
      simp only [Router.forget, howner, getElem?_events_removeChannel,
        Option.filter_eq_some_iff, decide_eq_true_eq] at hevent
      have hown := h.owner hmem hevent.1
      rw [if_neg, hown]
      rintro rfl
      rw [howner] at hown
      exact hevent.2 (Option.some.inj hown).symm

end Forget

end Router

end TouchGestures
