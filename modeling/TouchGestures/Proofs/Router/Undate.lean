import TouchGestures.Proofs.Channel.Undate
import TouchGestures.Proofs.Router.Renumber
import TouchGestures.Proofs.Router.Visits

namespace TouchGestures

-- The verdicts of a helper on touches do not depend on when those happened.
def Helper.Dateless (helper : Helper) : Prop :=
  ∀ (consumer : ConsumerId) (t : Touch) (time : Time),
    helper.handles consumer { t with time } = helper.handles consumer t

section Synthesize

variable {known : List EventId} {kind : Touch.Kind} {contacts : List Contact} {ids : EventIds}

-- Touches that are made up for the same contacts under the same numbers differ in their
-- times alone.
theorem synthesizeAll_undate (clock : Clock)
    (hnew : ∀ id ∈ ids.drawn contacts.length, id ∉ known) :
    (synthesizeAll kind (.still 0) contacts ids).1 =
      (synthesizeAll kind clock contacts ids).1.map (·.undate known) := by
  induction contacts generalizing clock ids with
  | nil => rfl
  | cons c rest ih =>
    have hfirst : (c.synthesize kind clock.now ids.fresh.1).undate known =
        c.synthesize kind 0 ids.fresh.1 :=
      congrArg (fun time => c.synthesize kind time ids.fresh.1)
        (dated_of_not_mem (hnew _ List.mem_cons_self) _)
    simp only [synthesizeAll, List.map_cons, hfirst, Clock.now_still, Clock.rest_still,
      ih clock.rest fun id hid => hnew id (List.mem_cons_of_mem _ hid)]

end Synthesize

variable (known : List EventId)

def Notice.undate (n : Notice) : Notice := n.map (·.undate known) (·.undate known)

namespace Router

def Reply.undate : Reply → Reply
  | .answer result => .answer result
  | .released gestures => .released (gestures.map (·.undate known))
  | .told helper message => .told helper (message.map (·.undate known) (·.undate known))

-- The router but for when the touches happened that were not known.
def undate (r : Router) : Router := r.adjust fun _ channel => channel.undate known

variable {known} {r r₁ r' r₁' : Router} {c : ConsumerId} {key : ChannelKey} {now : Time}
  {t : Touch} {notices notices' : List Notice} {visits visits' : List (Time × ConsumerId)}

theorem handles_undate (h : ∀ entry ∈ r.helpers, entry.2.Dateless) (t : Touch) :
    r.handles c (t.undate known) = r.handles c t := by
  unfold handles
  cases hhelper : r.helperFor? c with
  | none => rfl
  | some entry => exact h entry (List.mem_of_find?_eq_some hhelper) c t _

theorem respects_undate (hkind : t.kind = .cancelled) (hnew : t.id ∉ known) :
    Respects (fun _ c => c.undate known) (·.undate known) (·.undate known) key t where
  kind := rfl
  contact := rfl
  touch := Channel.touch_undate hkind hnew
  ack := Channel.ack_undate
  drain := fun _ => rfl

theorem cancel_undate {cancelled : Bool} (hhelpers : ∀ entry ∈ r.helpers, entry.2.Dateless)
    (hnew : ∀ id ∈ r.ids.drawn (r.liveCount c), id ∉ known)
    (hr : r.cancel now c = .ok (cancelled, notices, r₁)) :
    (r.undate known).cancel 0 c =
      .ok (cancelled, notices.map (Notice.undate known), r₁.undate known) := by
  have howners : (r.undate known).owners = r.owners := rfl
  unfold cancel at hr ⊢
  rw [howners]
  cases howner : r.owners[c]? with
  | none =>
    rw [howner] at hr
    cases hr
    rfl
  | some key =>
    simp only [howner] at hr
    have hdrawn : ∀ channel ∈ r.channels[key]?,
        ∀ id ∈ r.ids.drawn channel.contacts.live.length, id ∉ known := by
      intro channel hlive
      rwa [liveCount, channel?_of_live howner hlive] at hnew
    refine cancelChannel_adjust (fun channel hlive t ht => ?_) (fun channel hlive => ?_) hr
    · rw [ContactTable.cancels_eq] at ht
      have hid : t.id ∈ r.ids.drawn channel.contacts.live.length := by
        rw [← map_id_synthesizeAll .cancelled (.still now)]
        exact List.mem_map_of_mem ht
      exact ⟨respects_undate (kind_of_mem_synthesizeAll ht) (hdrawn channel hlive t.id hid),
        handles_undate hhelpers t⟩
    · have hlast : (channel.undate known).contacts.live = channel.contacts.live := rfl
      rw [ContactTable.cancels_eq, ContactTable.cancels_eq, hlast]
      refine Prod.ext (synthesizeAll_undate (.still now) (hdrawn channel hlive)) ?_
      rw [Prod.map_snd, snd_synthesizeAll, snd_synthesizeAll, id]

-- Times do not matter to what becomes of the contacts of several consumers.
theorem cancelAt_undate (h : r.Ready) (hhelpers : ∀ entry ∈ r.helpers, entry.2.Dateless)
    (hnodup : (visits.map (·.2)).Nodup)
    (hnew : ∀ id ∈ r.ids.drawn ((visits.map (·.2)).map r.liveCount).sum, id ∉ known)
    (hr : r.cancelAt visits = .ok (notices, r₁)) :
    (r.undate known).cancelAt (visits.map fun visit => (0, visit.2)) =
      .ok (notices.map (Notice.undate known), r₁.undate known) := by
  induction visits generalizing r notices with
  | nil =>
    cases hr
    rfl
  | cons visit rest ih =>
    obtain ⟨⟨cancelled, first, between⟩, hfirst, hr⟩ := bind_eq_ok.mp hr
    obtain ⟨⟨others, last⟩, hothers, heq⟩ := bind_eq_ok.mp hr
    cases heq
    obtain ⟨hnot, hnodup⟩ := List.nodup_cons.mp hnodup
    rw [List.map_cons, List.map_cons, List.sum_cons, EventIds.drawn_add] at hnew
    have hfirst' :=
      cancel_undate hhelpers (fun id hid => hnew id (List.mem_append_left _ hid)) hfirst
    have hhelpers' : between.helpers = r.helpers := by
      obtain ⟨_, _, _, rfl⟩ := cancel_frame hfirst
      rfl
    have hcounts := h.liveCounts_cancel hnot hfirst
    have hids := ids_cancel h.owned hfirst
    dsimp only at hcounts hids
    have hothers' := ih (h.cancel hfirst) (hhelpers'.symm ▸ hhelpers) hnodup
      (fun id hid => hnew id (List.mem_append_right _ (by rwa [hids, hcounts] at hid))) hothers
    simp only [List.map_cons, cancelAt, hfirst', hothers', ok_bind, List.map_append]

-- What is done for the same consumers in the same order but at other times is the same but
-- for the times of the touches that are made up.
theorem undate_eq_of_cancelAt (h : r.Ready) (hhelpers : ∀ entry ∈ r.helpers, entry.2.Dateless)
    (hsame : visits'.map (·.2) = visits.map (·.2)) (hnodup : (visits.map (·.2)).Nodup)
    (hnew : ∀ id ∈ r.ids.drawn ((visits.map (·.2)).map r.liveCount).sum, id ∉ known)
    (hr : r.cancelAt visits = .ok (notices, r₁)) (hr' : r.cancelAt visits' = .ok (notices', r₁')) :
    notices'.map (Notice.undate known) = notices.map (Notice.undate known) ∧
      r₁'.undate known = r₁.undate known := by
  have hvisits : visits'.map (fun visit => ((0 : Time), visit.2)) =
      visits.map fun visit => ((0 : Time), visit.2) := by
    have hmapped := congrArg (List.map fun c => ((0 : Time), c)) hsame
    rwa [List.map_map, List.map_map] at hmapped
  have hundated := cancelAt_undate h hhelpers hnodup hnew hr
  have hundated' := cancelAt_undate h hhelpers (hsame ▸ hnodup) (hsame ▸ hnew) hr'
  rw [hvisits, hundated, Except.ok.injEq, Prod.mk.injEq] at hundated'
  exact ⟨hundated'.1.symm, hundated'.2.symm⟩

theorem heard_undate (notices : List Notice) :
    r.heard c (notices.map (Notice.undate known)) =
      (r.heard c notices).map (Reply.undate known) := by
  have hconsumer : ((fun notice : Notice => decide (notice.consumer = c)) ∘ Notice.undate known) =
      fun notice => decide (notice.consumer = c) := rfl
  unfold heard deliveries
  rw [List.filter_map, hconsumer, List.filterMap_map, List.map_filterMap, List.map_map,
    List.map_filterMap]
  refine List.filterMap_congr fun notice _ => ?_
  cases hfound : r.helperFor? notice.consumer <;>
    simp [hfound, Notice.undate, Notice.map, Reply.undate]

end Router

end TouchGestures
