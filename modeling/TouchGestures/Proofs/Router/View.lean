import Mathlib.Logic.Function.Basic
import TouchGestures.Proofs.Router.Separate

namespace TouchGestures

namespace Channel

variable {c d : Channel}

theorem consumer_touch {t : Touch} {result : TouchResult} (h : c.touch t = .ok (result, d)) :
    d.consumer = c.consumer := by
  unfold touch at h
  split at h
  · cases h
    rfl
  · split at h
    · cases h
    · cases h
      split <;> rfl

theorem consumer_ack {id : EventId} {consumed nonBlocking : Bool}
    (h : c.ack id consumed nonBlocking = .ok d) : d.consumer = c.consumer := by
  obtain ⟨judged, -, rfl⟩ := ack_eq_ok h
  rfl

end Channel

namespace Router

variable {r r₁ : Router} {c d : ConsumerId} {key : ChannelKey} {channel channel' : Channel}
  {now : Time}

-- The touches that await a verdict were seen by channels that are there.
structure Attended (r : Router) : Prop where
  live : ∀ {id : EventId} {key : ChannelKey}, r.events[id]? = some key → key ∈ r.channels

theorem Attended.removeChannel (h : r.Attended) (key : ChannelKey) :
    (r.removeChannel key).Attended := by
  constructor
  intro id other hevent
  rw [getElem?_events_removeChannel] at hevent
  obtain ⟨hevent, hne⟩ := Option.filter_eq_some_iff.mp hevent
  have hother : key ≠ other := fun heq => of_decide_eq_true hne heq.symm
  exact Std.ExtTreeMap.mem_erase.mpr ⟨by simpa using hother, h.live hevent⟩

theorem Attended.reassign (h : r.Attended) (source target : ConsumerId) (key : ChannelKey) :
    (r.reassign source target key).Attended := by
  constructor
  intro id other hevent
  rw [mem_channels_reassign]
  unfold Router.reassign at hevent
  simp only [] at hevent
  split at hevent <;> exact h.live hevent

theorem Attended.store (h : r.Attended) (c : ConsumerId) (t : Touch) (result : TouchResult)
    (channel : Channel) : (r.store c t result channel).Attended := by
  constructor
  intro id key hevent
  have hopened : ∀ other, other ∈ r.channels → other ∈ (r.obtain c).2.channels := by
    intro other hother
    unfold obtain
    split
    · exact hother
    · simp [Std.ExtTreeMap.mem_insert, hother]
  obtain ⟨_, _, _, _, hstore⟩ := store_frame r c t result channel
  rw [channels_store, Std.ExtTreeMap.mem_insert]
  rw [hstore] at hevent
  dsimp only at hevent
  split at hevent
  · rw [Std.ExtTreeMap.getElem?_insert] at hevent
    split at hevent
    · cases hevent
      exact .inl (by simp)
    · exact .inr (hopened _ (h.live hevent))
  · exact .inr (hopened _ (h.live hevent))

structure Tidy (r : Router) : Prop where
  owned : r.Owned
  named : r.Named
  unopened : ∀ {key : ChannelKey}, r.nextKey ≤ key → key ∉ r.channels
  attended : r.Attended

-- The consumer whose channel saw a touch that awaits a verdict.
def seenBy? (r : Router) (id : EventId) : Option ConsumerId :=
  r.events[id]?.bind fun key => r.channels[key]?.map (·.consumer)

-- What a router has for each consumer, whatever the keys of the channels.
@[ext]
structure View where
  settings : Settings
  channel : ConsumerId → Option Channel
  seenBy : EventId → Option ConsumerId
  orphans : Std.ExtTreeSet EventId

def view (r : Router) : View where
  settings := r.settings
  channel := r.channel?
  seenBy := r.seenBy?
  orphans := r.orphans

namespace View

def own (v : View) (c : ConsumerId) : Channel :=
  (v.channel c).getD (Channel.ofSettings c v.settings.channel)

def touch (v : View) (t : Touch) (c : ConsumerId) : Except Violation (TouchResult × View) :=
  ((v.own c).touch t).map fun (result, channel) =>
    (result,
      { v with
        channel := Function.update v.channel c (some channel)
        seenBy := if result.accepted then Function.update v.seenBy t.id (some c) else v.seenBy })

def addressee (v : View) (id : EventId) (sender : ConsumerId) : ConsumerId :=
  (v.seenBy id).getD sender

def ack (v : View) (id : EventId) (consumed nonBlocking : Bool) (sender : ConsumerId) :
    Except Violation (List Gesture × View) :=
  if id ∈ v.orphans then .ok ([], { v with orphans := v.orphans.erase id })
  else
    let seenBy := Function.update v.seenBy id none
    match v.channel (v.addressee id sender) with
    | none => .ok ([], { v with seenBy })
    | some channel =>
      (channel.ack id consumed nonBlocking).map fun channel =>
        (channel.released,
          { v with
            seenBy
            channel := Function.update v.channel (v.addressee id sender) (some channel.drain.2) })

def tick (v : View) (now : Time) : View :=
  { v with channel := fun c => (v.channel c).map fun channel => (channel.rung now).2 }

end View

theorem Tidy.live_of_owner (h : r.Tidy) (howner : r.owners[c]? = some key) :
    ∃ channel, r.channels[key]? = some channel ∧ r.channel? c = some channel ∧
      channel.consumer = c := by
  obtain ⟨channel, hlive⟩ := mem_channels_iff.mp (h.owned.live howner)
  have hchannel := channel?_of_live howner hlive
  exact ⟨channel, hlive, hchannel, h.named.consumer hchannel⟩

theorem Tidy.owner_of_live (h : r.Tidy) (hlive : r.channels[key]? = some channel) :
    r.owners[channel.consumer]? = some key :=
  h.named.owner_of_live h.owned hlive

-- Routers that do not differ in the channels and their owners.
theorem Tidy.congr (h : r.Tidy) (howners : r₁.owners = r.owners)
    (hchannels : r₁.channels = r.channels)
    (hunopened : ∀ {key : ChannelKey}, r₁.nextKey ≤ key → key ∉ r.channels)
    (hattended : r₁.Attended) : r₁.Tidy where
  owned := h.owned.congr howners fun _ => by rw [hchannels]
  named := ⟨fun hchannel => h.named.consumer (by
    rwa [channel?, howners, hchannels] at hchannel)⟩
  unopened := by rwa [hchannels]
  attended := hattended

section Put

theorem channel?_put_eq (h : r.Owned) (howner : r.owners[c]? = some key) :
    (r.put key channel).channel? = Function.update r.channel? c (some channel) := by
  funext d
  by_cases hd : d = c
  · subst hd
    rw [Function.update_self, channel?_put howner]
  · rw [Function.update_of_ne hd]
    refine channel?_congr rfl fun other hother => ?_
    rw [getElem?_channels_put, if_neg]
    rintro rfl
    exact hd (h.single hother howner)

theorem seenBy?_put (hlive : r.channels[key]? = some channel)
    (hconsumer : channel'.consumer = channel.consumer) :
    (r.put key channel').seenBy? = r.seenBy? := by
  funext id
  have hsame : ∀ other : ChannelKey, (r.put key channel').channels[other]?.map Channel.consumer =
      r.channels[other]?.map Channel.consumer := by
    intro other
    rw [getElem?_channels_put]
    split
    · next heq => rw [← heq, hlive, Option.map_some, Option.map_some, hconsumer]
    · rfl
  exact Option.bind_congr fun other _ => hsame other

theorem Tidy.put (h : r.Tidy) (hlive : r.channels[key]? = some channel)
    (hconsumer : channel'.consumer = channel.consumer) : (r.put key channel').Tidy where
  owned := h.owned.congr rfl (mem_channels_put hlive)
  named := by
    constructor
    intro consumer found hfound
    rw [channel?_put_eq h.owned (h.owner_of_live hlive)] at hfound
    by_cases hother : consumer = channel.consumer
    · subst hother
      rw [Function.update_self] at hfound
      cases hfound
      exact hconsumer
    · rw [Function.update_of_ne hother] at hfound
      exact h.named.consumer hfound
  unopened := fun hkey => by
    rw [mem_channels_put hlive]
    exact h.unopened hkey
  attended := ⟨fun hevent => (mem_channels_put hlive _).mpr (h.attended.live hevent)⟩

end Put

section Touch

variable {t : Touch} {result : TouchResult}

theorem channels_obtain_of_mem (h : r.Tidy) (hmem : key ∈ r.channels) :
    (r.obtain c).2.channels[key]? = r.channels[key]? := by
  unfold obtain
  split
  · rfl
  · rw [getElem?_channels_insert, if_neg]
    rintro rfl
    exact h.unopened (Nat.le_refl _) hmem

theorem Tidy.consumer_ownChannel (h : r.Tidy) (c : ConsumerId) : (r.ownChannel c).consumer = c := by
  unfold ownChannel
  cases hchannel : r.channel? c with
  | none => rfl
  | some channel => exact h.named.consumer hchannel

theorem channel?_obtain (h : r.Tidy) (c : ConsumerId) :
    (r.obtain c).2.channel? = Function.update r.channel? c (some (r.ownChannel c)) := by
  funext d
  by_cases hd : d = c
  · subst hd
    rw [Function.update_self]
    exact channel?_of_live (by rw [getElem?_owners_obtain, if_pos rfl]) (obtain_live h.owned)
  · rw [Function.update_of_ne hd]
    refine channel?_congr (by rw [getElem?_owners_obtain, if_neg (Ne.symm hd)]) fun key howner => ?_
    exact channels_obtain_of_mem h (h.owned.live howner)

theorem Tidy.obtain (h : r.Tidy) (c : ConsumerId) : (r.obtain c).2.Tidy where
  owned := h.owned.obtain (h.unopened (Nat.le_refl _))
  named := by
    constructor
    intro consumer found hfound
    rw [channel?_obtain h] at hfound
    by_cases hother : consumer = c
    · subst hother
      rw [Function.update_self] at hfound
      cases hfound
      exact h.consumer_ownChannel _
    · rw [Function.update_of_ne hother] at hfound
      exact h.named.consumer hfound
  unopened := by
    intro key hkey
    unfold Router.obtain at hkey ⊢
    split at hkey
    · next howner => simpa [howner] using h.unopened hkey
    · next hnone =>
      have hnew : r.nextKey ≠ key := Nat.ne_of_lt hkey
      simp [Std.ExtTreeMap.mem_insert, hnew, h.unopened (Nat.le_of_lt hkey)]
  attended := by
    constructor
    intro id key hevent
    have hmem : key ∈ r.channels := by
      obtain ⟨_, _, _, hobtain⟩ := obtain_frame r c
      rw [hobtain] at hevent
      exact h.attended.live hevent
    rw [mem_channels_iff, channels_obtain_of_mem h hmem, ← mem_channels_iff]
    exact hmem

theorem seenBy?_obtain (h : r.Tidy) (c : ConsumerId) : (r.obtain c).2.seenBy? = r.seenBy? := by
  obtain ⟨_, _, _, hobtain⟩ := obtain_frame r c
  have hevents : (r.obtain c).2.events = r.events := by rw [hobtain]
  funext id
  unfold seenBy?
  rw [hevents]
  exact Option.bind_congr fun key hevent => by
    rw [channels_obtain_of_mem h (h.attended.live hevent)]

-- A stored touch is filed with the channel of its consumer.
theorem store_eq (r : Router) (c : ConsumerId) (t : Touch) (result : TouchResult)
    (channel : Channel) :
    ∃ bindings, r.store c t result channel =
      { (r.obtain c).2.put (r.obtain c).1 channel with
        bindings
        events := if result.accepted then (r.obtain c).2.events.insert t.id (r.obtain c).1
          else (r.obtain c).2.events } := by
  obtain ⟨bindings, hbind⟩ := bind_frame ((r.obtain c).2.put (r.obtain c).1 channel) t c
  unfold store
  simp only [hbind]
  cases result.accepted <;> exact ⟨_, rfl⟩

theorem owner_obtain (r : Router) (c : ConsumerId) :
    (r.obtain c).2.owners[c]? = some (r.obtain c).1 := by
  rw [getElem?_owners_obtain, if_pos rfl]

theorem Tidy.store (h : r.Tidy) (t : Touch) (result : TouchResult)
    (hconsumer : channel.consumer = c) : (r.store c t result channel).Tidy := by
  have hlive := obtain_live (c := c) h.owned
  have hattended := h.attended.store c t result channel
  have hput : ((r.obtain c).2.put (r.obtain c).1 channel).Tidy :=
    (h.obtain c).put hlive (hconsumer.trans (h.consumer_ownChannel c).symm)
  obtain ⟨bindings, hstore⟩ := store_eq r c t result channel
  rw [hstore] at hattended ⊢
  exact hput.congr rfl rfl hput.unopened hattended

theorem view_store (h : r.Tidy) (t : Touch) (result : TouchResult)
    (hconsumer : channel.consumer = c) : (r.store c t result channel).view =
      { r.view with
        channel := Function.update r.channel? c (some channel)
        seenBy := if result.accepted then Function.update r.seenBy? t.id (some c)
          else r.seenBy? } := by
  have hlive := obtain_live (c := c) h.owned
  have hseen : ((r.obtain c).2.put (r.obtain c).1 channel).seenBy? = r.seenBy? := by
    rw [seenBy?_put hlive (hconsumer.trans (h.consumer_ownChannel c).symm), seenBy?_obtain h]
  obtain ⟨bindings, hstore⟩ := store_eq r c t result channel
  obtain ⟨_, _, _, hobtain⟩ := obtain_frame r c
  have hchannel : (r.store c t result channel).channel? =
      Function.update r.channel? c (some channel) := by
    rw [hstore]
    refine (channel?_put_eq (h.obtain c).owned (owner_obtain r c)).trans ?_
    rw [channel?_obtain h, Function.update_idem]
  have hseenBy : (r.store c t result channel).seenBy? =
      if result.accepted then Function.update r.seenBy? t.id (some c) else r.seenBy? := by
    rw [hstore]
    cases result.accepted with
    | false => exact hseen
    | true =>
      funext id
      by_cases hid : id = t.id
      · subst hid
        simp [seenBy?, put, hconsumer]
      · have hother := congrFun hseen id
        simpa [seenBy?, put, Std.ExtTreeMap.getElem?_insert, hid, Ne.symm hid] using hother
  have hrest : (r.store c t result channel).settings = r.settings ∧
      (r.store c t result channel).orphans = r.orphans := by
    rw [hstore, hobtain]
    exact ⟨rfl, rfl⟩
  unfold view
  rw [hchannel, hseenBy, hrest.1, hrest.2]

-- What a touch does can be told from the view.
theorem touch_view (h : r.Tidy) (t : Touch) (c : ConsumerId) :
    (r.touch t c).map (Prod.map id view) = r.view.touch t c := by
  have hown : r.view.own c = r.ownChannel c := rfl
  rw [touch_eq h.owned, View.touch, hown]
  cases htouch : (r.ownChannel c).touch t with
  | error violation => rfl
  | ok answer =>
    obtain ⟨result, channel⟩ := answer
    have hconsumer := (Channel.consumer_touch htouch).trans (h.consumer_ownChannel c)
    simp only [ok_map, Prod.map_apply, id, view_store h t result hconsumer]
    rfl

theorem Tidy.touch (h : r.Tidy) (htouch : r.touch t c = .ok (result, r₁)) : r₁.Tidy := by
  rw [touch_eq h.owned] at htouch
  obtain ⟨⟨answer, channel⟩, htouched, heq⟩ := map_eq_ok.mp htouch
  cases heq
  exact h.store t result ((Channel.consumer_touch htouched).trans (h.consumer_ownChannel c))

end Touch

section Ack

variable {consumed nonBlocking : Bool} {gestures : List Gesture}

-- A verdict is for the consumer whose channel saw the touch, or else for the sender.
theorem awaiting?_eq (h : r.Tidy) (id : EventId) (sender : ConsumerId) :
    r.awaiting? id sender = r.owners[r.view.addressee id sender]? := by
  have hseenBy : r.view.addressee id sender = (r.seenBy? id).getD sender := rfl
  rw [hseenBy, awaiting?, seenBy?]
  cases hevent : r.events[id]? with
  | none => rfl
  | some key =>
    obtain ⟨channel, hlive⟩ := mem_channels_iff.mp (h.attended.live hevent)
    simp [hlive, h.owner_of_live hlive]

theorem seenBy?_erase (r : Router) (id : EventId) :
    ({ r with events := r.events.erase id } : Router).seenBy? =
      Function.update r.seenBy? id none := by
  funext other
  by_cases hother : other = id
  · subst hother
    simp [seenBy?]
  · simp [seenBy?, Function.update_of_ne hother, Std.ExtTreeMap.getElem?_erase, Ne.symm hother]

theorem Tidy.erase (h : r.Tidy) (id : EventId) :
    ({ r with events := r.events.erase id } : Router).Tidy := by
  refine h.congr rfl rfl h.unopened ⟨fun {other key} hevent => ?_⟩
  dsimp only at hevent
  rw [Std.ExtTreeMap.getElem?_erase] at hevent
  split at hevent
  · cases hevent
  · exact h.attended.live hevent

-- So can what a verdict does.
theorem ack_view (h : r.Tidy) (id : EventId) (consumed nonBlocking : Bool) (sender : ConsumerId) :
    (r.ack id consumed nonBlocking sender).map (fun (gestures, after) => (gestures, after.view)) =
      r.view.ack id consumed nonBlocking sender := by
  have hawaiting := awaiting?_eq h id sender
  unfold Router.ack View.ack
  simp only [hawaiting, Std.ExtTreeSet.contains_iff_mem]
  by_cases horphan : id ∈ r.orphans
  · have horphan' : id ∈ r.view.orphans := horphan
    rw [if_pos horphan, if_pos horphan']
    rfl
  · have horphan' : id ∉ r.view.orphans := horphan
    rw [if_neg horphan, if_neg horphan']
    cases howner : r.owners[r.view.addressee id sender]? with
    | none =>
      have hnone : r.view.channel (r.view.addressee id sender) = none :=
        h.owned.channel?_eq_none_iff.mpr howner
      simp only [hnone, ok_map]
      rw [view, seenBy?_erase]
      rfl
    | some key =>
      obtain ⟨channel, hlive, hchannel, hconsumer⟩ := h.live_of_owner howner
      have hsome : r.view.channel (r.view.addressee id sender) = some channel := hchannel
      simp only [hsome, hlive]
      cases hack : channel.ack id consumed nonBlocking with
      | error violation => rfl
      | ok after =>
        have herased := h.erase id
        have hafter : after.consumer = channel.consumer := Channel.consumer_ack hack
        have hput : (({ r with events := r.events.erase id } : Router).put key
            after.drain.2).channel? = _ := channel?_put_eq herased.owned howner
        have hseen : (({ r with events := r.events.erase id } : Router).put key
            after.drain.2).seenBy? = _ := seenBy?_put hlive hafter
        simp only [ok_bind, ok_map]
        rw [view, hput, hseen, seenBy?_erase]
        rfl

theorem Tidy.ack {id : EventId} {sender : ConsumerId} (h : r.Tidy)
    (hack : r.ack id consumed nonBlocking sender = .ok (gestures, r₁)) : r₁.Tidy := by
  obtain ⟨-, -, rfl⟩ | ⟨-, -, -, rfl⟩ | ⟨key, channel, after, -, -, hlive, hafter, -, rfl⟩ :=
    ack_cases hack
  · exact h.congr rfl rfl h.unopened ⟨h.attended.live⟩
  · exact h.erase id
  · have hconsumer : after.consumer = channel.consumer := Channel.consumer_ack hafter
    exact Tidy.put (h.erase id) hlive hconsumer

end Ack

-- When alarms ring the view tells what becomes of each consumer.
theorem tick_view (h : r.Tidy) (now : Time) :
    ∃ notices after, r.tick now = .ok (notices, after) ∧ after.Tidy ∧
      after.view = r.view.tick now ∧
      ∀ c, notices.filter (fun notice => notice.consumer = c) = r.rings now c := by
  obtain ⟨notices, channels, htick, hconsumers⟩ := tick_eq now h.owned h.named
  obtain ⟨_, htick', hchannels⟩ := tickEach_eq (r := r) now r.channels.nodup_keys
  cases htick.symm.trans htick'
  have hrung : ∀ key : ChannelKey,
      channels[key]? = r.channels[key]?.map fun channel => (channel.rung now).2 := by
    intro key
    rw [hchannels]
    split
    · rfl
    · next hkey =>
      have hgone : r.channels[key]? = none :=
        Std.ExtTreeMap.getElem?_eq_none fun hmem => hkey (Std.ExtTreeMap.mem_keys.mpr hmem)
      rw [hgone]
      rfl
  have hmem : ∀ key, key ∈ channels ↔ key ∈ r.channels := by
    intro key
    rw [Std.ExtTreeMap.mem_iff_isSome_getElem?, Std.ExtTreeMap.mem_iff_isSome_getElem?, hrung,
      Option.isSome_map]
  refine ⟨_, _, htick, ⟨h.owned.congr rfl hmem, ⟨fun {consumer channel} hchannel => ?_⟩,
    fun hkey => mt (hmem _).mp (h.unopened hkey),
      ⟨fun hevent => (hmem _).mpr (h.attended.live hevent)⟩⟩,
    ?_, fun c => (hconsumers c).2⟩
  · rw [(hconsumers consumer).1] at hchannel
    obtain ⟨before, hbefore, rfl⟩ := Option.map_eq_some_iff.mp hchannel
    rw [Channel.consumer_rung]
    exact h.named.consumer hbefore
  · have hchannel : ({ r with channels } : Router).channel? =
        fun c => (r.channel? c).map fun channel => (channel.rung now).2 :=
      funext fun c => (hconsumers c).1
    have hseen : ({ r with channels } : Router).seenBy? = r.seenBy? := by
      funext id
      refine Option.bind_congr fun key _ => ?_
      dsimp only
      rw [hrung, Option.map_map]
      exact Option.map_congr fun channel _ => Channel.consumer_rung channel now
    rw [view, hchannel, hseen]
    rfl

theorem Tidy.forgetHistory (h : r.Tidy) (key : ChannelKey) : (r.forgetHistory key).Tidy := by
  unfold Router.forgetHistory
  split
  · exact h
  · next channel hlive => exact Tidy.put h hlive rfl

-- What a router is given to deal with while nobody interferes.
inductive Input
  | touch (t : Touch) (consumer : ConsumerId)
  | ack (id : EventId) (consumed nonBlocking : Bool) (sender : ConsumerId)
  | tick (now : Time)

-- The answer to a touch, and the gestures that are released for a consumer.
@[ext]
structure Output where
  answer : Option TouchResult
  gestures : List Gesture
  deriving DecidableEq

def gesturesTo (c : ConsumerId) (notices : List Notice) : List Gesture :=
  gesturesIn (notices.filter fun notice => notice.consumer = c)

def output (r : Router) (c : ConsumerId) : Input → Except Violation (Output × Router)
  | .touch t d => (r.touch t d).map fun (result, after) => (⟨some result, []⟩, after)
  | .ack id consumed nonBlocking sender =>
    (r.perform (.ack id consumed nonBlocking sender)).map fun (notices, after) =>
      (⟨none, gesturesTo c notices⟩, after)
  | .tick now => (r.tick now).map fun (notices, after) => (⟨none, gesturesTo c notices⟩, after)

def outputs (r : Router) (c : ConsumerId) : List Input → Except Violation (List Output)
  | [] => .ok []
  | input :: rest => do
    let (first, r) ← r.output c input
    let others ← r.outputs c rest
    .ok (first :: others)

namespace View

def output (v : View) (c : ConsumerId) : Input → Except Violation (Output × View)
  | .touch t d => (v.touch t d).map fun (result, after) => (⟨some result, []⟩, after)
  | .ack id consumed nonBlocking sender =>
    (v.ack id consumed nonBlocking sender).map fun (gestures, after) =>
      (⟨none, if v.addressee id sender = c then gestures else []⟩, after)
  | .tick now =>
    .ok (⟨none, ((v.channel c).map fun channel => (channel.rung now).1).getD []⟩, v.tick now)

def outputs (v : View) (c : ConsumerId) : List Input → Except Violation (List Output)
  | [] => .ok []
  | input :: rest => do
    let (first, v) ← v.output c input
    let others ← v.outputs c rest
    .ok (first :: others)

end View

theorem gesturesTo_map (c d : ConsumerId) (gestures : List Gesture) :
    gesturesTo c (gestures.map fun g => ⟨d, .gesture g⟩) = if d = c then gestures else [] := by
  unfold gesturesTo
  rw [List.filter_map]
  split
  · next heq => simp [Function.comp_def, heq]
  · next hne => simp [Function.comp_def, hne]

theorem output_view (h : r.Tidy) (c : ConsumerId) (input : Input) :
    (r.output c input).map (fun (first, after) => (first, after.view)) =
      r.view.output c input := by
  cases input with
  | touch t d =>
    have htouch := touch_view h t d
    simp only [output, View.output, ← htouch]
    cases r.touch t d <;> rfl
  | ack id consumed nonBlocking sender =>
    have hack := ack_view h id consumed nonBlocking sender
    simp only [output, View.output, perform, ← hack]
    cases hok : r.ack id consumed nonBlocking sender with
    | error violation => rfl
    | ok result =>
      obtain ⟨gestures, after⟩ := result
      have hto : (if (r.respondent id sender).2 = c then gestures else []) =
          if r.view.addressee id sender = c then gestures else [] := by
        obtain ⟨-, rfl, -⟩ | ⟨-, -, rfl, -⟩ | ⟨key, channel, _, -, hkey, hlive, -, -, -⟩ :=
          ack_cases hok
        · simp
        · simp
        · have howner := awaiting?_eq h id sender
          rw [hkey] at howner
          have hsame := h.owned.single howner.symm (h.owner_of_live hlive)
          simp [respondent, hkey, hlive, hsame]
      simp only [ok_map, gesturesTo_map, hto]
  | tick now =>
    obtain ⟨notices, after, htick, -, hview, htold⟩ := tick_view h now
    have hgestures : gesturesTo c notices =
        ((r.channel? c).map fun channel => (channel.rung now).1).getD [] := by
      rw [gesturesTo, htold, rings]
      cases r.channel? c with
      | none => rfl
      | some channel => exact gesturesIn_map_gesture _ _
    simp only [output, View.output, htick, ok_map, hgestures, hview]
    rfl

theorem Tidy.output {input : Input} {first : Output} (h : r.Tidy)
    (hr : r.output c input = .ok (first, r₁)) : r₁.Tidy := by
  cases input with
  | touch t d =>
    obtain ⟨⟨result, after⟩, htouch, heq⟩ := map_eq_ok.mp hr
    cases heq
    exact h.touch htouch
  | ack id consumed nonBlocking sender =>
    obtain ⟨⟨notices, after⟩, hperform, heq⟩ := map_eq_ok.mp hr
    cases heq
    obtain ⟨⟨gestures, after⟩, hack, heq⟩ := map_eq_ok.mp hperform
    cases heq
    exact h.ack hack
  | tick now =>
    obtain ⟨notices, after, htick, hafter, -⟩ := tick_view h now
    obtain ⟨result, hresult, heq⟩ := map_eq_ok.mp hr
    cases htick.symm.trans hresult
    cases heq
    exact hafter

-- Whatever is put in, what comes of it for a consumer can be told from the view: the keys
-- of the channels do not matter.
theorem outputs_view (h : r.Tidy) (c : ConsumerId) (inputs : List Input) :
    r.outputs c inputs = r.view.outputs c inputs := by
  induction inputs generalizing r with
  | nil => rfl
  | cons input rest ih =>
    have hview := output_view h c input
    rw [outputs, View.outputs, ← hview]
    cases hfirst : r.output c input with
    | error violation => rfl
    | ok result => simp only [ok_bind, ok_map, ih (h.output hfirst)]

end Router

namespace Session

open Router (Act)

variable {s : Session} {router : Router} {handouts : List Router.Handout}

theorem attended_act {a : Act} (h : s.router.Attended) (hm : s.router.Mirrors s.books)
    (howned : s.router.Owned) (hr : s.router.act a = .ok (handouts, router)) :
    router.Attended := by
  cases a with
  | touch t consumer =>
    obtain ⟨⟨result, after⟩, htouch, heq⟩ := map_eq_ok.mp hr
    cases heq
    rw [Router.touch_eq howned] at htouch
    obtain ⟨⟨answer, channel⟩, -, heq⟩ := map_eq_ok.mp htouch
    cases heq
    exact h.store consumer t result channel
  | reassign source target key =>
    cases hr
    unfold Router.displace
    split
    · exact h.reassign source target key
    · next displaced _ => exact (h.removeChannel displaced).reassign source target key
  | forget consumer =>
    cases hr
    unfold Router.forget
    simp only []
    split
    · exact ⟨h.live⟩
    · next key _ =>
      have hdisowned : ({ s.router with
          owners := s.router.owners.erase consumer } : Router).Attended := ⟨h.live⟩
      exact ⟨(hdisowned.removeChannel key).live⟩
  | ack | cancelChannel | reenter | tick | forgetHistory | configure | rebind | addHelper
  | removeHelper | setIds =>
    obtain ⟨-, hchannels, hevents⟩ := kept_act hm rfl hr
    exact ⟨fun hevent => (hchannels _).mpr (h.live (hevents hevent))⟩

theorem Reached.tidy {permits : Session → Router.Op → Prop} (h : Reached permits s) :
    s.router.Tidy where
  owned := h.owned
  named := h.named
  unopened := fun hkey => by
    rw [Router.mem_channels_iff, h.mirrors.unopened hkey]
    simp
  attended := by
    refine (h.induct (P := fun s => s.router.Owned ∧ s.router.Attended)
      (fun settings ids => ⟨Router.owned_start settings ids, ⟨by simp⟩⟩) ?_).2
    intro s s' a hm hgranted hs hact
    obtain ⟨handouts, router, hr, rfl⟩ := act_eq_ok hact
    exact ⟨owned_act hs.1 hm hgranted hr, attended_act hs.2 hm hs.1 hr⟩

end Session

end TouchGestures
