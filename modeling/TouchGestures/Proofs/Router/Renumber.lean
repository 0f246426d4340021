import TouchGestures.Proofs.Router.Adjust
import TouchGestures.Proofs.Router.Coherence

namespace TouchGestures

open Channel (ofSettings)

namespace Channel

variable {ρ : Renumbering} (c : Channel)

theorem renumber_ofSettings (consumer : ConsumerId) (settings : ChannelSettings) :
    (ofSettings consumer settings).renumber ρ = ofSettings consumer settings := rfl

theorem forgetHistory_renumber : (c.renumber ρ).forgetHistory = c.forgetHistory.renumber ρ := rfl

theorem reassign_renumber (consumer : ConsumerId) :
    (c.renumber ρ).reassign consumer = (c.reassign consumer).renumber ρ := rfl

theorem drain_renumber :
    (c.renumber ρ).drain = c.drain.map (List.map (·.renumber ρ)) (·.renumber ρ) := rfl

theorem enter_renumber {contact : Contact} {now : Time} {id : EventId} {d : Channel}
    (hid : ρ id = id) (h : c.enter contact now id = .ok d) :
    (c.renumber ρ).enter contact now id = .ok (d.renumber ρ) := by
  have hsame : (contact.synthesize .pressed now id).renumber ρ =
      contact.synthesize .pressed now id := by simp [Touch.renumber, Contact.synthesize, hid]
  have htouch' := c.touch_renumber (ρ := ρ) (contact.synthesize .pressed now id)
  rw [hsame] at htouch'
  obtain ⟨⟨result, between⟩, htouch, hrest⟩ := bind_eq_ok.mp h
  rw [enter, htouch', htouch, ok_map, ok_bind]
  dsimp only [Prod.map, id_eq] at hrest ⊢
  split at hrest
  · next haccepted =>
    have hack := between.ack_renumber (ρ := ρ) hrest
    rw [hid] at hack
    rw [if_pos haccepted, hack]
  · next haccepted =>
    cases hrest
    rw [if_neg haccepted]

end Channel

theorem Touch.renumber_eq_self {ρ : Renumbering} {t : Touch} (h : ρ t.id = t.id) :
    t.renumber ρ = t := by
  simp [Touch.renumber, h]

namespace Router

variable {ρ : Renumbering} {r r₁ : Router} {consumer : ConsumerId} {key : ChannelKey}
  {notices : List Notice} {now : Time} {clock : Clock}

def Handout.renumber (ρ : Renumbering) (handout : Handout) : Handout :=
  { handout with toNotice := handout.toNotice.renumber ρ }

theorem map_renumber_handOut :
    (handOut key notices).map (·.renumber ρ) = handOut key (notices.map (·.renumber ρ)) := by
  simp [handOut, Handout.renumber, Notice.renumber]

-- Other numbers for the touches that channels know of. Those that still await a verdict
-- from the host are left as they are.
def renumber (ρ : Renumbering) (r : Router) : Router :=
  { r with channels := r.channels.map fun _ channel => channel.renumber ρ }

@[simp] theorem owners_renumber : (r.renumber ρ).owners = r.owners := rfl

@[simp] theorem channels_renumber :
    (r.renumber ρ).channels[key]? = (r.channels[key]?).map (·.renumber ρ) := channels_adjust

theorem put_renumber (channel : Channel) :
    (r.renumber ρ).put key (channel.renumber ρ) = (r.put key channel).renumber ρ :=
  put_adjust (φ := fun _ c => c.renumber ρ) channel

theorem bind_renumber (t : Touch) :
    (r.renumber ρ).bind t consumer = (r.bind t consumer).renumber ρ := bind_adjust t

theorem obtain_renumber :
    (r.renumber ρ).obtain consumer =
      ((r.obtain consumer).1, (r.obtain consumer).2.renumber ρ) := by
  unfold obtain
  simp only [owners_renumber]
  cases r.owners[consumer]? with
  | some key => rfl
  | none => simp [renumber, map_insert_channels, Channel.renumber_ofSettings]

theorem removeChannel_renumber :
    (r.renumber ρ).removeChannel key = (r.removeChannel key).renumber ρ := removeChannel_adjust

theorem forgetHistory_renumber :
    (r.renumber ρ).forgetHistory key = (r.forgetHistory key).renumber ρ :=
  forgetHistory_adjust (φ := fun _ c => c.renumber ρ) fun _ => rfl

theorem reassign_renumber (source target : ConsumerId) :
    (r.renumber ρ).reassign source target key = (r.reassign source target key).renumber ρ :=
  reassign_adjust (φ := fun _ c => c.renumber ρ) fun _ => rfl

theorem displace_renumber (source target : ConsumerId) :
    (r.renumber ρ).displace source target key = (r.displace source target key).renumber ρ := by
  simp only [displace, owners_renumber]
  cases r.owners[target]? with
  | none => exact reassign_renumber source target
  | some displaced =>
    simp only [removeChannel_renumber]
    exact reassign_renumber source target

theorem forget_renumber :
    ((r.renumber ρ).forget consumer).2 = (r.forget consumer).2.renumber ρ := by
  simp only [forget, owners_renumber]
  cases r.owners[consumer]? with
  | none => rfl
  | some key =>
    have herased : ({ r.renumber ρ with owners := r.owners.erase consumer } : Router) =
        ({ r with owners := r.owners.erase consumer } : Router).renumber ρ := rfl
    simp only [herased, removeChannel_renumber]
    rfl

theorem configure_renumber (settings : Settings) :
    (r.renumber ρ).configure settings = (r.configure settings).renumber ρ := by
  have hchannels : ((r.renumber ρ).configure settings).channels =
      ((r.configure settings).renumber ρ).channels :=
    Std.ExtTreeMap.ext_getElem? fun other => by
      simp only [configure, channels_renumber, Std.ExtTreeMap.getElem?_map, Option.map_map,
        Function.comp_def, Channel.configure_renumber]
  simpa only [configure, renumber, Router.mk.injEq, and_self, true_and, and_true] using hchannels

theorem touch_renumber {t : Touch} {result : TouchResult} (hid : ρ t.id = t.id)
    (hr : r.touch t consumer = .ok (result, r₁)) :
    (r.renumber ρ).touch t consumer = .ok (result, r₁.renumber ρ) := by
  unfold touch at hr ⊢
  simp only [obtain_renumber, channels_renumber]
  dsimp only at hr
  cases hlive : (r.obtain consumer).2.channels[(r.obtain consumer).1]? with
  | none =>
    rw [hlive] at hr
    cases hr
    rfl
  | some channel =>
    rw [hlive] at hr
    obtain ⟨⟨answer, touched⟩, htouch, hr⟩ := bind_eq_ok.mp hr
    have htouch' := channel.touch_renumber (ρ := ρ) t
    rw [Touch.renumber_eq_self hid, htouch] at htouch'
    simp only [Option.map_some, htouch', ok_map, ok_bind, Prod.map, id_eq, put_renumber]
    dsimp only at hr
    split at hr
    · next haccepted =>
      cases hr
      rw [if_pos haccepted, bind_renumber]
      rfl
    · next haccepted =>
      cases hr
      rw [if_neg haccepted]

theorem respects_renumber (t : Touch) :
    Respects (fun _ c => c.renumber ρ) (·.renumber ρ) (·.renumber ρ) key t where
  kind := rfl
  contact := rfl
  touch := fun {c d result} h => by rw [c.touch_renumber, h, ok_map, Prod.map_apply, id]
  ack := fun {c d consumed} h => c.ack_renumber h
  drain := fun c => c.drain_renumber

theorem cancelChannel_renumber {cancelled : Bool}
    (hids : ∀ id ∈ r.numbersOf (.cancelChannel now consumer key), ρ id = id)
    (hr : r.cancelChannel now consumer key = .ok (cancelled, notices, r₁)) :
    (r.renumber ρ).cancelChannel now consumer key =
      .ok (cancelled, notices.map (·.renumber ρ), r₁.renumber ρ) := by
  have hself : ∀ channel ∈ r.channels[key]?, ∀ t ∈ (channel.contacts.cancels now r.ids).1,
      t.renumber ρ = t := by
    intro channel hlive t ht
    refine Touch.renumber_eq_self (hids t.id ?_)
    simp only [numbersOf, Option.mem_def.mp hlive, Option.map_some, Option.getD_some]
    exact List.mem_map_of_mem ht
  refine cancelChannel_adjust (fun channel hlive t ht => ⟨respects_renumber t, ?_⟩)
    (fun channel hlive => ?_) hr
  · rw [hself channel hlive t ht]
  · have hsame : (channel.contacts.cancels now r.ids).1.map (·.renumber ρ) =
        (channel.contacts.cancels now r.ids).1 :=
      (List.map_congr_left (hself channel hlive)).trans (List.map_id _)
    exact congrArg (·, (channel.contacts.cancels now r.ids).2) hsame.symm

theorem reenter_renumber {contacts : List Contact}
    (hids : ∀ id ∈ r.numbersOf (.reenter clock key contacts), ρ id = id)
    (hr : r.reenter clock key contacts = .ok r₁) :
    (r.renumber ρ).reenter clock key contacts = .ok (r₁.renumber ρ) := by
  cases hlive : r.channels[key]? with
  | none =>
    rw [reenter_of_none hlive] at hr
    cases hr
    exact reenter_of_none (by rw [channels_renumber, hlive, Option.map_none])
  | some channel =>
    rw [numbersOf, if_pos (mem_channels_iff.mpr ⟨channel, hlive⟩), map_id_synthesizeAll] at hids
    exact reenter_adjust (φ := fun _ c => c.renumber ρ)
      (fun hid h => Channel.enter_renumber _ hid h) (fun _ => rfl) (fun _ => rfl) hids hr

-- Numbers that a step of the router gives or takes are the same in both runs. A verdict
-- names a touch as well, and is looked at on its own.
theorem act_renumber {a : Act} {handouts : List Handout}
    (hack : ∀ id consumed nonBlocking consumer, a ≠ .ack id consumed nonBlocking consumer)
    (hids : ∀ id ∈ r.numbersOf a, ρ id = id) (hr : r.act a = .ok (handouts, r₁)) :
    (r.renumber ρ).act a = .ok (handouts.map (·.renumber ρ), r₁.renumber ρ) := by
  cases a with
  | touch t consumer =>
    obtain ⟨⟨result, after⟩, htouch, heq⟩ := map_eq_ok.mp hr
    cases heq
    rw [act, touch_renumber (hids t.id (List.mem_singleton_self _)) htouch]
    rfl
  | ack id consumed nonBlocking consumer => exact absurd rfl (hack id consumed nonBlocking consumer)
  | cancelChannel now consumer key =>
    obtain ⟨⟨cancelled, notices, after⟩, hcancel, heq⟩ := map_eq_ok.mp hr
    cases heq
    rw [act, cancelChannel_renumber hids hcancel, ok_map, map_renumber_handOut]
  | reenter clock key contacts =>
    obtain ⟨after, hreenter, heq⟩ := map_eq_ok.mp hr
    cases heq
    rw [act, reenter_renumber hids hreenter]
    rfl
  | tick now key =>
    simp only [act, channels_renumber] at hr ⊢
    cases hlive : r.channels[key]? with
    | none =>
      rw [hlive] at hr
      cases hr
      rfl
    | some channel =>
      rw [hlive] at hr
      obtain ⟨⟨gestures, rung⟩, htick, heq⟩ := map_eq_ok.mp hr
      cases heq
      simp only [Option.map_some, Channel.tick_renumber, htick, ok_map, Prod.map, put_renumber]
      rw [map_renumber_handOut]
      simp [Notice.renumber, Message.renumber, Function.comp_def]
      rfl
  | forgetHistory key =>
    cases hr
    rw [act, forgetHistory_renumber]
    rfl
  | reassign source target key =>
    cases hr
    rw [act, displace_renumber]
    rfl
  | forget consumer =>
    cases hr
    rw [act, forget_renumber]
    rfl
  | configure settings =>
    cases hr
    rw [act, configure_renumber]
    rfl
  | rebind | addHelper | removeHelper | setIds =>
    cases hr
    rfl

-- The touch whose verdict a channel takes in is one that the channel knows of.
theorem ack_renumber_self {id : EventId} {consumed nonBlocking : Bool} {gestures : List Gesture}
    (hself : r.renumber ρ = r)
    (hids : ∀ {key : ChannelKey} {channel : Channel}, r.channels[key]? = some channel →
      ∀ p ∈ channel.queue.packets, ρ p.eventId = p.eventId)
    (hr : r.ack id consumed nonBlocking consumer = .ok (gestures, r₁)) : r₁.renumber ρ = r₁ := by
  have hchannels : r.channels.map (fun _ channel => channel.renumber ρ) = r.channels :=
    congrArg channels hself
  obtain ⟨-, -, rfl⟩ | ⟨-, -, -, rfl⟩ |
    ⟨key, channel, channel', -, -, hlive, hack, -, rfl⟩ := ack_cases hr
  · simp only [renumber, hchannels]
  · simp only [renumber, hchannels]
  · have hsame : channel.renumber ρ = channel := by
      have hlive' : (r.renumber ρ).channels[key]? = (r.channels[key]?).map (·.renumber ρ) :=
        channels_renumber
      rw [hself, hlive, Option.map_some, Option.some.injEq] at hlive'
      exact hlive'.symm
    obtain ⟨judged, hjudge, -⟩ := Channel.ack_eq_ok hack
    obtain ⟨before, p, -, after, hpackets, hid, -⟩ := Release.Queue.judge_cases hjudge
    have hfixed : ρ id = id := hid ▸ hids hlive p (by simp [hpackets])
    have hack' := channel.ack_renumber (ρ := ρ) hack
    rw [hsame, hfixed, hack, Except.ok.injEq] at hack'
    have hdrained : channel'.drain.2.renumber ρ = channel'.drain.2 := by
      conv_rhs => rw [hack']
      rfl
    simp only [put, renumber, map_insert_channels, hchannels, hdrained]

end Router

namespace Session

open Router (Act Handout)

variable {ρ : Renumbering} {s s' : Session} {acts : List Act} {added : List EventId}

-- The steps that make up an operation go the same way for a router that has other numbers
-- for the touches so far, as long as the numbers that they bring are the same.
theorem play_renumber (hparts : ∀ a ∈ acts, a.whole? = none)
    (hs : s.play acts = .ok s') (hnumbers : s'.numbers = s.numbers ++ added)
    (hids : ∀ id ∈ added, ρ id = id) :
    ∃ handouts, s.router.play acts = .ok (handouts, s'.router) ∧
      (s.router.renumber ρ).play acts =
        .ok (handouts.map (·.renumber ρ), s'.router.renumber ρ) := by
  induction acts generalizing s added with
  | nil =>
    cases hs
    exact ⟨[], rfl, rfl⟩
  | cons a rest ih =>
    obtain ⟨s₁, ha, hrest⟩ := bind_eq_ok.mp hs
    obtain ⟨later, hlater⟩ := prefix_numbers_play hrest
    obtain ⟨first, router, hr, rfl⟩ := act_eq_ok ha
    have hadded : added = s.router.numbersOf a ++ later := by
      rw [← hlater, List.append_assoc] at hnumbers
      exact (List.append_cancel_left hnumbers).symm
    have hack : ∀ id consumed nonBlocking consumer,
        a ≠ .ack id consumed nonBlocking consumer := by
      rintro id consumed nonBlocking consumer rfl
      cases hparts _ List.mem_cons_self
    have hfirst := Router.act_renumber hack
      (fun id hid => hids id (hadded ▸ List.mem_append_left _ hid)) hr
    obtain ⟨others, hplay, hplay'⟩ := ih (fun b hb => hparts b (List.mem_cons_of_mem a hb))
      hrest hlater.symm fun id hid => hids id (hadded ▸ List.mem_append_right _ hid)
    refine ⟨first ++ others, ?_, ?_⟩
    · rw [Router.play_cons, hr, ok_bind, hplay, ok_map]
    · rw [Router.play_cons, hfirst, ok_bind, hplay', ok_map, List.map_append]

-- Channels know of no touch that is not on record.
theorem Reached.renumber_self {permits : Session → Router.Op → Prop} (h : Reached permits s)
    (hnodup : s.numbers.Nodup) (hρ : ∀ id ∈ s.numbers, ρ id = id) :
    s.router.renumber ρ = s.router := by
  refine (h.induct (P := fun s => s.numbers.Nodup → s.Consistent ∧
    ((∀ id ∈ s.numbers, ρ id = id) → s.router.renumber ρ = s.router))
    (fun settings ids _ => ⟨consistent_start settings ids, fun _ => ?_⟩) ?_ hnodup).2 hρ
  · have hnone : (∅ : Std.ExtTreeMap ChannelKey Channel).map (fun _ c => c.renumber ρ) = ∅ :=
      Std.ExtTreeMap.ext_getElem? fun key => by simp
    simp only [Router.renumber, hnone]
  · intro s s' a hm _ hs hact hnodup
    obtain ⟨handouts, router, hr, rfl⟩ := act_eq_ok hact
    obtain ⟨hconsistent, hself⟩ := hs (List.nodup_append.mp hnodup).1
    refine ⟨hconsistent.act hm hnodup hr, fun hρ => ?_⟩
    have hself := hself fun id hid => hρ id (List.mem_append_left _ hid)
    by_cases hack : ∃ id consumed nonBlocking consumer, a = .ack id consumed nonBlocking consumer
    · obtain ⟨id, consumed, nonBlocking, consumer, rfl⟩ := hack
      obtain ⟨⟨gestures, after⟩, hack, heq⟩ := map_eq_ok.mp hr
      cases heq
      exact Router.ack_renumber_self hself
        (fun hlive p hp => hρ _ (List.mem_append_left _ (hconsistent.numbered hlive p hp))) hack
    · have hr' := Router.act_renumber (ρ := ρ)
        (fun id consumed nonBlocking consumer heq =>
          hack ⟨id, consumed, nonBlocking, consumer, heq⟩)
        (fun id hid => hρ id (List.mem_append_right _ hid)) hr
      rw [hself, hr, Except.ok.injEq, Prod.mk.injEq] at hr'
      exact hr'.2.symm

end Session

end TouchGestures
