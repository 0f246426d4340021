import TouchGestures.Proofs.Router.Alike.Cancel
import TouchGestures.Proofs.Router.Dispatch
import TouchGestures.Proofs.Router.Freed

namespace TouchGestures

open Channel (Chronicle)

def Message.isTouch : Message → Bool
  | .touch _ => true
  | .gesture _ => false

-- A channel where nothing is down has no stream under way, and hence no alarm set.
theorem Channel.Chronicle.Sound.at_rest {k : Chronicle} (h : k.Sound)
    (hnil : k.channel.contacts.contacts = []) :
    k.channel.detector.stream = none ∧ k.channel.nextDeadline = none := by
  have hstream := h.idle hnil
  refine ⟨hstream, ?_⟩
  rw [Channel.nextDeadline, Pipeline.nextDeadline, Detector.nextDeadline, hstream, Option.bind_none]

namespace Router

variable {r r' : Router} {consumer : ConsumerId} {key : ChannelKey} {k : Chronicle}
  {t : Touch} {notices : List Notice} {touches : List Touch} {now : Time}

def liveFor (r : Router) (consumer : ConsumerId) : List Contact :=
  ((r.channel? consumer).map (·.contacts.live)).getD []

-- Each of the made up touches is accepted by the channel as those before it have left it.
def AcceptsEach (r : Router) (consumer : ConsumerId) (key : ChannelKey) : List Touch → Prop
  | [] => True
  | t :: rest =>
    (∃ channel result after, r.channels[key]? = some channel ∧
      channel.touch t = .ok (result, after) ∧ result.accepted = true) ∧
    ∃ notices r', r.inject consumer key t = .ok (notices, r') ∧ r'.AcceptsEach consumer key rest

-- The consumer is told of a made up touch if it is accepted, besides gestures.
theorem touches_inject (hk : r.Accounts key k) (haccepts : k.accepts t = true)
    (hr : r.inject consumer key t = .ok (notices, r')) :
    (∃ result channel, k.channel.touch t = .ok (result, channel) ∧ result.accepted = true) ∧
      notices.filter (·.message.isTouch) = [⟨consumer, .touch t⟩] := by
  unfold inject at hr
  simp only [hk.live] at hr
  obtain ⟨⟨result, channel⟩, htouch, hr⟩ := bind_eq_ok.mp hr
  have haccepted : result.accepted = true := by
    rw [← haccepts, Chronicle.accepts, htouch]
  dsimp only at hr
  rw [if_pos haccepted] at hr
  obtain ⟨acked, -, hr⟩ := bind_eq_ok.mp hr
  cases hr
  refine ⟨⟨result, channel, htouch, haccepted⟩, ?_⟩
  simp [Message.isTouch]

-- The first cancel ends the stream, and no later one needs it: whichever contact is the
-- oldest by then can be cancelled.
theorem accepts_cancels {contacts : List Contact} {ids : EventIds} (hk : r.Accounts key k)
    (hcontacts : k.channel.contacts.contacts = contacts)
    (hr : r.injectAll consumer key (synthesizeAll .cancelled (.still now) contacts ids).1 =
      .ok (notices, r')) :
    r.AcceptsEach consumer key (synthesizeAll .cancelled (.still now) contacts ids).1 ∧
      notices.filter (·.message.isTouch) =
        (synthesizeAll .cancelled (.still now) contacts ids).1.map
          fun t => ⟨consumer, .touch t⟩ := by
  induction contacts generalizing r k ids notices with
  | nil =>
    cases hr
    exact ⟨trivial, rfl⟩
  | cons c rest ih =>
    obtain ⟨⟨first, r₁⟩, hfirst, hr⟩ := bind_eq_ok.mp hr
    obtain ⟨⟨others, r₂⟩, hothers, hr⟩ := bind_eq_ok.mp hr
    cases hr
    have hfirst : r.inject consumer key (c.synthesize .cancelled now ids.fresh.1) =
        .ok (first, r₁) := hfirst
    have haccepts := Chronicle.accepts_cancel hk.lived.sound hcontacts now ids.fresh.1
    obtain ⟨⟨result, channel, htouch, haccepted⟩, htold⟩ := touches_inject hk haccepts hfirst
    have hrest := Chronicle.contacts_inject_cancel hk.lived.sound hcontacts
      (r.handles consumer) now ids.fresh.1
    obtain ⟨hlater, hall⟩ := ih (inject_continues hk hfirst).accounts hrest hothers
    refine ⟨⟨⟨k.channel, result, channel, hk.live, htouch, haccepted⟩, first, r₁, hfirst, hlater⟩,
      ?_⟩
    rw [List.filter_append, htold, hall]
    rfl

-- The touches of what is for one consumer reach its helper, or nobody.
theorem touches_deliveries (hconsumer : ∀ notice ∈ notices, notice.consumer = consumer)
    (htold : notices.filter (·.message.isTouch) = touches.map fun t => ⟨consumer, .touch t⟩) :
    (r.deliveries notices).filter (·.2.message.isTouch) =
      match r.helperFor? consumer with
      | some (id, _) => touches.map fun t => (id, ⟨consumer, .touch t⟩)
      | none => [] := by
  have hsame : r.deliveries notices =
      notices.filterMap fun notice => (r.helperFor? consumer).map fun entry => (entry.1, notice) :=
    List.filterMap_congr fun notice hnotice => by rw [hconsumer notice hnotice]
  rw [hsame]
  cases r.helperFor? consumer with
  | none => simp
  | some entry =>
    have hfilter : (notices.map fun notice => (entry.1, notice)).filter (·.2.message.isTouch) =
        (notices.filter (·.message.isTouch)).map fun notice => (entry.1, notice) :=
      List.filter_map ..
    simp only [Option.map_some, List.filterMap_eq_map', hfilter, htold, List.map_map]
    rfl

-- What comes of cancelling the contacts that are down for a consumer: one touch is made up
-- for each of them, where it was last seen, and the helper of the consumer hears of it.
-- Nothing is left to be cancelled.
structure Empties (r : Router) (now : Time) (consumer : ConsumerId) (cancelled : Bool)
    (notices : List Notice) (r' : Router) (touches : List Touch) : Prop where
  tells : cancelled = true ↔ r.liveFor consumer ≠ []
  cancels : List.Forall₂ (fun c t => t = c.synthesize .cancelled now t.id) (r.liveFor consumer)
    touches
  numbered : touches.map (·.id) = r.ids.drawn (r.liveFor consumer).length
  heard : (r.deliveries notices).filter (·.2.message.isTouch) =
    match r.helperFor? consumer with
    | some (id, _) => touches.map fun t => (id, ⟨consumer, .touch t⟩)
    | none => []
  accepted : ∀ key, r.owners[consumer]? = some key →
    { r with ids := r.ids.after touches.length }.AcceptsEach consumer key touches
  remains : (r'.channel? consumer).isSome = (r.channel? consumer).isSome
  rests : ∀ channel, r'.channel? consumer = some channel →
    channel.contacts.contacts = [] ∧ channel.detector.stream = none ∧ channel.nextDeadline = none
  unbound : ∀ c ∈ r.liveFor consumer, r'.boundConsumer? c.id = none
  again : ∀ later, r'.cancel later consumer = .ok (false, [], r')

theorem forall₂_synthesizeAll (now : Time) (contacts : List Contact) (ids : EventIds) :
    List.Forall₂ (fun c t => t = c.synthesize .cancelled now t.id) contacts
      (synthesizeAll .cancelled (.still now) contacts ids).1 := by
  induction contacts generalizing ids with
  | nil => exact .nil
  | cons c rest ih => exact .cons rfl (ih ids.fresh.2)

-- Where nothing is down there is nothing to cancel, and no number is drawn either.
theorem cancelChannel_of_empty {channel : Channel} (hlive : r.channels[key]? = some channel)
    (hnil : channel.contacts.live = []) (now : Time) (consumer : ConsumerId) :
    r.cancelChannel now consumer key = .ok (false, [], r) := by
  simp [cancelChannel, hlive, ContactTable.cancels_eq, hnil, synthesizeAll, injectAll]

theorem empties_of_no_owner (howned : r.Owned) (hnone : r.owners[consumer]? = none) (now : Time) :
    r.Empties now consumer false [] r [] := by
  have hchannel : r.channel? consumer = none := howned.channel?_eq_none_iff.mpr hnone
  have hlive : r.liveFor consumer = [] := by simp [liveFor, hchannel]
  refine ⟨by simp [hlive], by simp [hlive], by simp [hlive, EventIds.drawn], ?_,
    fun key howner => ?_, rfl, fun channel hsome => ?_, by simp [hlive], ?_⟩
  · cases r.helperFor? consumer <;> simp [deliveries]
  · rw [hnone] at howner
    cases howner
  · rw [hchannel] at hsome
    cases hsome
  · intro later
    simp [cancel, hnone]

-- Cancelling what is down on a channel runs one touch for each contact through it.
theorem injectAll_of_cancelChannel {cancelled : Bool} (hk : r.Accounts key k)
    (hr : r.cancelChannel now consumer key = .ok (cancelled, notices, r')) :
    let contacts := k.channel.contacts.contacts
    (cancelled = true ↔ contacts ≠ []) ∧
      { r with ids := r.ids.after contacts.length }.injectAll consumer key
        (synthesizeAll .cancelled (.still now) contacts r.ids).1 = .ok (notices, r') := by
  intro contacts
  have hdown : k.channel.contacts.live = contacts :=
    ContactTable.live_of_leaving_eq_none hk.lived.sound.settled
  unfold cancelChannel at hr
  simp only [hk.live, ContactTable.cancels_eq, hdown, snd_synthesizeAll] at hr
  obtain ⟨⟨given, r₁⟩, hinject, heq⟩ := bind_eq_ok.mp hr
  cases heq
  refine ⟨?_, hinject⟩
  cases contacts <;> simp [synthesizeAll]

theorem empties_of_owner {cancelled : Bool} (hk : r.Accounts key k)
    (howner : r.owners[consumer]? = some key)
    (hr : r.cancelChannel now consumer key = .ok (cancelled, notices, r')) :
    r.Empties now consumer cancelled notices r'
      (synthesizeAll .cancelled (.still now) k.channel.contacts.contacts r.ids).1 := by
  have hlive : r.liveFor consumer = k.channel.contacts.contacts := by
    rw [liveFor, channel?_of_live howner hk.live, Option.map_some, Option.getD_some,
      ContactTable.live_of_leaving_eq_none hk.lived.sound.settled]
  have hids := map_id_synthesizeAll .cancelled (.still now) k.channel.contacts.contacts r.ids
  have hlength :
      (synthesizeAll .cancelled (.still now) k.channel.contacts.contacts r.ids).1.length =
        k.channel.contacts.contacts.length := by
    simpa using congrArg List.length hids
  obtain ⟨htells, hinject⟩ := injectAll_of_cancelChannel hk hr
  have hsame : { r with
      ids := r.ids.after k.channel.contacts.contacts.length }.Accounts key k :=
    ⟨hk.live, hk.taken, hk.lived⟩
  obtain ⟨haccepts, htold⟩ := accepts_cancels hsame rfl hinject
  have hafter := (cancelChannel_continues hk hr).accounts
  have hnil := Chronicle.contacts_injectAll_cancels hk.lived (r.handles consumer) now r.ids
  have howner' : r'.owners[consumer]? = some key := by
    obtain ⟨channels, bindings, ids, hframe⟩ := cancelChannel_frame hr
    exact (congrArg (·.owners[consumer]?) hframe).trans howner
  exact {
    tells := hlive ▸ htells
    cancels := hlive ▸ forall₂_synthesizeAll _ _ _
    numbered := hlive ▸ hids
    heard := touches_deliveries (consumer_of_mem_cancelChannel hr) htold
    accepted := fun other howner₁ => by
      rw [howner, Option.some.injEq] at howner₁
      rw [← howner₁, hlength]
      exact haccepts
    remains := by
      rw [channel?_of_live howner' hafter.live, channel?_of_live howner hk.live]
      rfl
    rests := fun channel hchannel => by
      rw [channel?_of_live howner' hafter.live, Option.some.injEq] at hchannel
      rw [← hchannel]
      exact ⟨hnil, hafter.lived.sound.at_rest hnil⟩
    unbound := fun c hc => by
      have hmem : c.id ∈ k.channel.contacts.ids := List.mem_map_of_mem (hlive ▸ hc)
      exact (bindings_cancelChannel hk hr c.id).trans (if_pos hmem)
    again := fun later => by
      simp only [cancel, howner']
      exact cancelChannel_of_empty hafter.live
        ((ContactTable.live_of_leaving_eq_none hafter.lived.sound.settled).trans hnil) later
        consumer }

end Router

namespace Session

variable {s : Session} {permits : Session → Router.Op → Prop}

-- Two fingers are down for a consumer with a helper.
def attended : Session :=
  (((start 10).attempt (.addHelper { serves := (· = 1), handles := fun _ _ => false })).attempt
    (.touch (Channel.finger .pressed 1 10 30 1) 1)).attempt
    (.touch (Channel.finger .pressed 2 50 40 2) 1)

theorem reached_attended : Reached (fun _ _ => True) attended :=
  (((Reached.start {} ⟨10⟩).attempt trivial).attempt trivial).attempt trivial

end Session

end TouchGestures
