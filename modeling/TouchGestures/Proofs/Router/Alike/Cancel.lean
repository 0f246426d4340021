import TouchGestures.Proofs.Router.Alike.Basic
import TouchGestures.Proofs.Router.Numbering

namespace TouchGestures

namespace Message

def renumber (ρ : Renumbering) : Message → Message
  | .gesture g => .gesture (g.renumber ρ)
  | .touch t => .touch (t.renumber ρ)

end Message

def Notice.renumber (ρ : Renumbering) (n : Notice) : Notice :=
  { n with message := n.message.renumber ρ }

namespace Router

variable {ρ : Renumbering} {r r₁ r' : Router} {books : Books} {c d : ConsumerId}
  {key key' : ChannelKey} {channel : Channel} {now : Time} {log : List (EventId × ConsumerId)}
  {notices : List Notice} {t : Touch}

theorem helperFor?_eq (h : r'.helpers = r.helpers) : r'.helperFor? = r.helperFor? := by
  funext consumer
  rw [helperFor?, helperFor?, h]

theorem handles_eq (h : r'.helpers = r.helpers) : r'.handles = r.handles := by
  funext consumer t
  simp only [handles, helperFor?_eq h]

theorem cancel_frame {result : Bool × List Notice × Router} (h : r.cancel now c = .ok result) :
    ∃ channels bindings ids, result.2.2 = { r with channels, bindings, ids } := by
  unfold cancel at h
  split at h
  · exact cancelChannel_frame h
  · cases h
    exact ⟨_, _, _, rfl⟩

-- Cancels the contacts of several consumers, each at a given time.
def cancelAt (r : Router) :
    List (Time × ConsumerId) → Except Violation (List Notice × Router)
  | [] => .ok ([], r)
  | (now, consumer) :: rest => do
    let (_, first, r) ← r.cancel now consumer
    let (others, r) ← r.cancelAt rest
    .ok (first ++ others, r)

theorem cancelEach_eq (clock : Clock) (consumers : List ConsumerId) :
    r.cancelEach clock consumers = r.cancelAt (clock.stamp consumers) := by
  induction consumers generalizing r clock with
  | nil => rfl
  | cons c rest ih => simp only [cancelEach, Clock.stamp, cancelAt, ih]

theorem cancelAt_frame {visits : List (Time × ConsumerId)}
    (h : r.cancelAt visits = .ok (notices, r₁)) :
    ∃ channels bindings ids, r₁ = { r with channels, bindings, ids } := by
  induction visits generalizing r notices with
  | nil =>
    cases h
    exact ⟨_, _, _, rfl⟩
  | cons visit rest ih =>
    obtain ⟨⟨cancelled, first, between⟩, hfirst, h⟩ := bind_eq_ok.mp h
    obtain ⟨⟨others, last⟩, hothers, h⟩ := bind_eq_ok.mp h
    cases h
    obtain ⟨_, _, _, hframe⟩ := cancel_frame hfirst
    obtain ⟨_, _, _, rfl⟩ := ih hothers
    dsimp only at hframe
    rw [hframe]
    exact ⟨_, _, _, rfl⟩

theorem inject_alike (hhelpers : r'.helpers = r.helpers)
    (hhandles : ∀ t, r.handles c (t.renumber ρ) = r.handles c t)
    (hlive : r.channels[key]? = some channel)
    (hlive' : r'.channels[key']? = some (channel.renumber ρ))
    (hr : r.inject c key t = .ok (notices, r₁)) :
    ∃ r₁' channel₁, r'.inject c key' (t.renumber ρ) = .ok (notices.map (·.renumber ρ), r₁') ∧
      r₁.channels[key]? = some channel₁ ∧ r₁'.channels[key']? = some (channel₁.renumber ρ) := by
  have hbound : ∀ (r : Router) (t : Touch), (r.bind t c).handles = r.handles := by
    intro r t
    obtain ⟨bindings, hbind⟩ := bind_frame r t c
    rw [hbind]
    rfl
  have htouch' := channel.touch_renumber (ρ := ρ) t
  unfold inject at hr ⊢
  simp only [hlive] at hr
  simp only [hlive', htouch']
  obtain ⟨⟨result, touched⟩, htouch, hr⟩ := bind_eq_ok.mp hr
  simp only [htouch, ok_map, ok_bind]
  dsimp only at hr
  split at hr
  · next haccepted =>
    obtain ⟨acked, hack, hr⟩ := bind_eq_ok.mp hr
    cases hr
    rw [hbound] at hack
    have hack' := touched.ack_renumber (ρ := ρ) hack
    rw [← hhandles t, ← handles_eq hhelpers, ← hbound r' (t.renumber ρ)] at hack'
    refine ⟨(r'.bind (t.renumber ρ) c).put key' (acked.renumber ρ).drain.2, acked.drain.2, ?_,
      by simp [put], by simp [put]; rfl⟩
    simp only [Prod.map, id, haccepted, if_true]
    rw [show (t.renumber ρ).id = ρ t.id from rfl, hack', ok_bind]
    simp [Channel.drain, Channel.renumber, Notice.renumber, Message.renumber, Function.comp_def]
  · next haccepted =>
    cases hr
    refine ⟨r'.put key' (touched.renumber ρ), touched, ?_, by simp [put], by simp [put]⟩
    simp [Prod.map, haccepted]

theorem injectAll_alike {touches : List Touch} (hhelpers : r'.helpers = r.helpers)
    (hhandles : ∀ t, r.handles c (t.renumber ρ) = r.handles c t)
    (hlive : r.channels[key]? = some channel)
    (hlive' : r'.channels[key']? = some (channel.renumber ρ))
    (hr : r.injectAll c key touches = .ok (notices, r₁)) :
    ∃ r₁' channel₁, r'.injectAll c key' (touches.map (·.renumber ρ)) =
        .ok (notices.map (·.renumber ρ), r₁') ∧
      r₁.channels[key]? = some channel₁ ∧ r₁'.channels[key']? = some (channel₁.renumber ρ) := by
  induction touches generalizing r r' channel notices with
  | nil =>
    cases hr
    exact ⟨r', channel, rfl, hlive, hlive'⟩
  | cons t rest ih =>
    obtain ⟨⟨first, between⟩, hfirst, hr⟩ := bind_eq_ok.mp hr
    obtain ⟨⟨others, last⟩, hothers, hr⟩ := bind_eq_ok.mp hr
    cases hr
    obtain ⟨between', channel', hfirst', hbetween, hbetween'⟩ :=
      inject_alike hhelpers hhandles hlive hlive' hfirst
    have hsame : between.helpers = r.helpers := by
      obtain ⟨_, _, rfl⟩ := inject_frame hfirst
      rfl
    have hsame' : between'.helpers = r'.helpers := by
      obtain ⟨_, _, hframe⟩ := inject_frame hfirst'
      rw [hframe]
    obtain ⟨last', channel₁, hothers', hlast, hlast'⟩ :=
      ih (hsame'.trans (hhelpers.trans hsame.symm)) (handles_eq hsame ▸ hhandles) hbetween hbetween'
        hothers
    refine ⟨last', channel₁, ?_, hlast, hlast'⟩
    simp only [List.map_cons, injectAll, hfirst', ok_bind, hothers', List.map_append]

-- How many touches are made up when the contacts of a consumer are cancelled.
def liveCount (r : Router) (c : ConsumerId) : Nat :=
  ((r.channel? c).map fun channel => channel.contacts.live.length).getD 0

theorem Alike.liveCount (h : r.Alike ρ c log r') : r'.liveCount c = r.liveCount c := by
  unfold Router.liveCount
  rw [h.channel]
  cases r.channel? c <;> rfl

-- Cancelling the contacts of a consumer numbers as many touches as it has contacts down.
theorem ids_cancel {result : Bool × List Notice × Router} (howned : r.Owned)
    (hcancel : r.cancel now c = .ok result) : result.2.2.ids = r.ids.after (r.liveCount c) := by
  unfold cancel at hcancel
  unfold liveCount
  cases howner : r.owners[c]? with
  | none =>
    rw [howner] at hcancel
    cases hcancel
    rw [howned.channel?_eq_none_iff.mpr howner]
    rfl
  | some key =>
    obtain ⟨channel, hlive⟩ := mem_channels_iff.mp (howned.live howner)
    simp only [howner, cancelChannel, hlive, ContactTable.cancels_eq] at hcancel
    obtain ⟨⟨notices, after⟩, hinject, heq⟩ := bind_eq_ok.mp hcancel
    cases heq
    obtain ⟨_, _, rfl⟩ := injectAll_frame hinject
    rw [channel?_of_live howner hlive]
    exact snd_synthesizeAll _ _ _ _

theorem cancelChannel_alike {cancelled : Bool} (hhelpers : r'.helpers = r.helpers)
    (hhandles : ∀ t, r.handles c (t.renumber ρ) = r.handles c t)
    (hlive : r.channels[key]? = some channel)
    (hlive' : r'.channels[key']? = some (channel.renumber ρ))
    (hdrawn : (r.ids.drawn channel.contacts.live.length).map ρ =
      r'.ids.drawn channel.contacts.live.length)
    (hr : r.cancelChannel now c key = .ok (cancelled, notices, r₁)) :
    ∃ r₁' channel₁, r'.cancelChannel now c key' =
        .ok (cancelled, notices.map (·.renumber ρ), r₁') ∧
      r₁.channels[key]? = some channel₁ ∧ r₁'.channels[key']? = some (channel₁.renumber ρ) := by
  have htouches := synthesizeAll_renumber .cancelled (.still now) channel.contacts.live r.ids hdrawn
  unfold cancelChannel at hr ⊢
  simp only [hlive, ContactTable.cancels_eq] at hr
  simp only [hlive', ContactTable.cancels_eq, Channel.contacts_renumber,
    ContactTable.live_renumber, htouches]
  obtain ⟨⟨given, last⟩, hinject, heq⟩ := bind_eq_ok.mp hr
  cases heq
  let drawn (ids : EventIds) := synthesizeAll .cancelled (.still now) channel.contacts.live ids
  have hsame : ({ r' with ids := (drawn r'.ids).2 } : Router).helpers =
      ({ r with ids := (drawn r.ids).2 } : Router).helpers :=
    hhelpers
  obtain ⟨last', channel₁, hinject', hlast, hlast'⟩ :=
    injectAll_alike hsame hhandles hlive hlive' hinject
  refine ⟨last', channel₁, ?_, hlast, hlast'⟩
  rw [hinject', ok_bind, List.isEmpty_map]

theorem Alike.cancel {cancelled : Bool} (h : r.Alike ρ c log r') (howned : r.Owned)
    (howned' : r'.Owned) (hhandles : ∀ t, r.handles c (t.renumber ρ) = r.handles c t)
    (hdrawn : (r.ids.drawn (r.liveCount c)).map ρ = r'.ids.drawn (r.liveCount c))
    (hcancel : r.cancel now c = .ok (cancelled, notices, r₁)) :
    ∃ r₁', r'.cancel now c = .ok (cancelled, notices.map (·.renumber ρ), r₁') ∧
      r₁.Alike ρ c log r₁' := by
  unfold Router.cancel at hcancel ⊢
  cases howner : r.owners[c]? with
  | none =>
    rw [howner] at hcancel
    cases hcancel
    rw [(h.owner howned howned').mpr howner]
    exact ⟨r', rfl, h⟩
  | some key =>
    obtain ⟨channel, hlive⟩ := mem_channels_iff.mp (howned.live howner)
    obtain ⟨key', howner', hlive'⟩ := h.live howner hlive
    rw [Router.liveCount, channel?_of_live howner hlive, Option.map_some, Option.getD_some] at hdrawn
    simp only [howner] at hcancel
    obtain ⟨r₁', channel₁, hcancel', hlast, hlast'⟩ :=
      cancelChannel_alike h.helpers hhandles hlive hlive' hdrawn hcancel
    refine ⟨r₁', by simp only [howner', hcancel'], ?_⟩
    obtain ⟨channels, bindings, ids, rfl⟩ := cancelChannel_frame hcancel
    obtain ⟨channels', bindings', ids', rfl⟩ := cancelChannel_frame hcancel'
    refine ⟨h.settings, h.helpers, h.nextHelper, ?_, h.events, h.orphans⟩
    have hchannel : ({ r with channels, bindings, ids } : Router).channel? c = some channel₁ :=
      channel?_of_live howner hlast
    have hchannel' : ({ r' with
        channels := channels', bindings := bindings', ids := ids' } : Router).channel? c =
        some (channel₁.renumber ρ) :=
      channel?_of_live howner' hlast'
    rw [hchannel, hchannel', Option.map_some]

theorem spares_cancel {result : Bool × List Notice × Router} (hm : r.Mirrors books)
    (howned : r.Owned) (hne : d ≠ c) (hcancel : r.cancel now d = .ok result) :
    r.Spares c log result.2.2 := by
  unfold cancel at hcancel
  cases howner : r.owners[d]? with
  | none =>
    rw [howner] at hcancel
    cases hcancel
    exact ⟨rfl, rfl, rfl, rfl, fun _ => Iff.rfl, fun _ => Iff.rfl⟩
  | some key =>
    simp only [howner] at hcancel
    obtain ⟨channel, hlive⟩ := mem_channels_iff.mp (howned.live howner)
    obtain ⟨k, -, hk⟩ := hm.book hlive
    have hothers := (cancelChannel_continues hk hcancel).others
    obtain ⟨channels, bindings, ids, hframe⟩ := cancelChannel_frame hcancel
    rw [hframe] at hothers ⊢
    refine ⟨rfl, rfl, rfl, channel?_congr rfl fun own hown => hothers own ?_, fun _ => Iff.rfl,
      fun _ => Iff.rfl⟩
    rintro rfl
    exact hne (howned.single howner hown)

end Router

end TouchGestures
