import TouchGestures.Proofs.Router.Alike.Everyone
import TouchGestures.Proofs.Router.Coherence

namespace TouchGestures

-- The verdicts of a helper on touches do not depend on their numbers.
def Helper.Numberless (helper : Helper) : Prop :=
  ∀ (consumer : ConsumerId) (t : Touch) (id : EventId),
    helper.handles consumer { t with id } = helper.handles consumer t

namespace Router

variable {r r₁ : Router} {books : Books} {c d : ConsumerId} {op : Op} {notices : List Notice}
  {log : List (EventId × ConsumerId)}

namespace Op

-- The number of the touch of an operation, with the consumer it is for.
def touches : Op → List (EventId × ConsumerId)
  | .touch t consumer => [(t.id, consumer)]
  | _ => []

-- An operation by which consumers do not get at each other: touches stay with their
-- consumers, who give the verdicts on the touches of the log.
def Separate (log : List (EventId × ConsumerId)) : Op → Prop
  | .ack id _ _ consumer => (id, consumer) ∈ log
  | .addHelper helper => helper.Numberless
  | .cancelOn .. | .cancelExcept .. | .transfer .. => False
  | _ => True

def AllSeparate (log : List (EventId × ConsumerId)) : List Op → Prop
  | [] => True
  | op :: rest => op.Separate log ∧ AllSeparate (log ++ op.touches) rest

def concerns (c : ConsumerId) : Op → Bool
  | .touch _ consumer | .ack _ _ _ consumer | .cancel _ consumer | .forget consumer => consumer = c
  | _ => true

end Op

def spent (r : Router) : Op → List EventId
  | .touch t _ => [t.id]
  | .cancel _ consumer => r.ids.drawn (r.liveCount consumer)
  | _ => []

def sourceAfter (r : Router) : Op → EventIds
  | .cancel _ consumer => r.ids.after (r.liveCount consumer)
  | .setIds ids => ids
  | _ => r.ids

def helpersAfter (r : Router) : Op → List (HelperId × Helper)
  | .addHelper helper => (r.addHelper helper).2.helpers
  | .removeHelper id => (r.removeHelper id).2.helpers
  | _ => r.helpers

theorem perform_frame (howned : r.Owned) (hop : op.Separate log)
    (h : r.perform op = .ok (notices, r₁)) :
    r₁.ids = r.sourceAfter op ∧ r₁.helpers = r.helpersAfter op := by
  cases op with
  | touch t consumer =>
    obtain ⟨⟨result, after⟩, htouch, heq⟩ := map_eq_ok.mp h
    cases heq
    rw [touch_eq howned] at htouch
    obtain ⟨⟨answer, channel⟩, -, heq⟩ := map_eq_ok.mp htouch
    cases heq
    obtain ⟨_, _, _, _, hstore⟩ := store_frame r consumer t result channel
    rw [hstore]
    exact ⟨rfl, rfl⟩
  | ack id consumed nonBlocking consumer =>
    obtain ⟨⟨gestures, after⟩, hack, heq⟩ := map_eq_ok.mp h
    cases heq
    obtain ⟨-, -, rfl⟩ | ⟨-, -, -, rfl⟩ | ⟨_, _, _, -, -, -, -, -, rfl⟩ := ack_cases hack <;>
      exact ⟨rfl, rfl⟩
  | cancel now consumer =>
    obtain ⟨⟨cancelled, result⟩, hcancel, heq⟩ := map_eq_ok.mp h
    cases heq
    refine ⟨ids_cancel howned hcancel, ?_⟩
    obtain ⟨_, _, _, rfl⟩ := cancel_frame hcancel
    rfl
  | tick now =>
    obtain ⟨channels, htick, -⟩ := tickEach_eq now r.channels.nodup_keys
    cases htick.symm.trans h
    exact ⟨rfl, rfl⟩
  | forget consumer =>
    cases h
    obtain ⟨_, _, _, _, _, hframe⟩ := forget_frame r consumer
    rw [hframe]
    exact ⟨rfl, rfl⟩
  | cancelOn | cancelExcept | transfer => exact absurd hop id
  | configure | addHelper | removeHelper | setIds =>
    cases h
    exact ⟨rfl, rfl⟩

section Matched

variable {r' : Router} {pairs : List (EventId × EventId)} {lead : Nat}
  {numbers numbers' : List EventId}

-- Both of two routers do an operation.
theorem matched_both (h : Matched pairs lead r.ids r'.ids numbers numbers')
    (hlive : r'.liveCount c = r.liveCount c) (hop : op.concerns c = true)
    (hnodup : (numbers ++ r.spent op).Nodup) :
    ∃ lead', Matched (pairs ++ (r.spent op).zip (r'.spent op)) lead' (r.sourceAfter op)
      (r'.sourceAfter op) (numbers ++ r.spent op) (numbers' ++ r'.spent op) := by
  cases op with
  | touch t consumer => exact ⟨lead, h.both hnodup⟩
  | cancel now consumer =>
    obtain rfl := of_decide_eq_true hop
    simp only [spent, sourceAfter, hlive] at hnodup ⊢
    exact ⟨lead, h.drawBoth hnodup⟩
  | setIds ids => exact ⟨0, by simpa [spent, sourceAfter] using h.restart ids⟩
  | _ => exact ⟨lead, by simpa [spent, sourceAfter] using h⟩

-- One of them does.
theorem matched_first (h : Matched pairs lead r.ids r'.ids numbers numbers')
    (hop : op.concerns c = false) (hnodup : (numbers ++ r.spent op).Nodup) :
    ∃ lead', Matched pairs lead' (r.sourceAfter op) r'.ids (numbers ++ r.spent op) numbers' := by
  cases op with
  | touch | ack | forget => exact ⟨lead, h.first _⟩
  | cancel now consumer => exact ⟨_, h.drawFirst hnodup⟩
  | cancelOn | cancelExcept | transfer | tick | configure | addHelper | removeHelper | setIds =>
    cases hop

end Matched

theorem Filed.cancel {now : Time} {result : Bool × List Notice × Router} (h : r.Filed c log)
    (hcancel : r.cancel now d = .ok result) : result.2.2.Filed c log := by
  obtain ⟨_, _, _, hframe⟩ := cancel_frame hcancel
  rw [hframe]
  exact h.of_subset rfl fun hevent => hevent

-- Whatever separate operations do, touches are filed with the consumers they are for.
theorem Filed.perform (h : r.Filed c log) (howned : r.Owned) (hop : op.Separate log)
    (hnew : ∀ entry ∈ op.touches, (∀ consumer, (entry.1, consumer) ∉ log) ∧ entry.1 ∉ r.events)
    (hr : r.perform op = .ok (notices, r₁)) : r₁.Filed c (log ++ op.touches) := by
  cases op with
  | touch t consumer =>
    obtain ⟨⟨result, after⟩, htouch, heq⟩ := map_eq_ok.mp hr
    cases heq
    obtain ⟨hnew, hevents⟩ := hnew (t.id, consumer) List.mem_cons_self
    exact h.touch hnew hevents howned htouch
  | ack id consumed nonBlocking consumer =>
    obtain ⟨⟨gestures, after⟩, hack, heq⟩ := map_eq_ok.mp hr
    cases heq
    simp only [Op.touches, List.append_nil]
    exact h.ack hack
  | cancel now consumer =>
    obtain ⟨⟨cancelled, result⟩, hcancel, heq⟩ := map_eq_ok.mp hr
    cases heq
    simp only [Op.touches, List.append_nil]
    exact h.cancel hcancel
  | tick now =>
    obtain ⟨channels, htick, -⟩ := tickEach_eq now r.channels.nodup_keys
    cases htick.symm.trans hr
    simp only [Op.touches, List.append_nil]
    exact h.of_subset rfl fun hevent => hevent
  | forget consumer =>
    cases hr
    simp only [Op.touches, List.append_nil]
    exact h.forget consumer
  | cancelOn | cancelExcept | transfer => exact absurd hop id
  | configure | addHelper | removeHelper | setIds =>
    cases hr
    simp only [Op.touches, List.append_nil]
    exact h.of_subset rfl fun hevent => hevent

-- What does not concern a consumer changes nothing of what is kept for it.
theorem spares_perform (hm : r.Mirrors books) (howned : r.Owned)
    (hfiled : ∀ consumer, r.Filed consumer log) (hdistinct : (log.map (·.1)).Nodup)
    (hop : op.Separate log) (hother : op.concerns c = false)
    (hnew : ∀ entry ∈ op.touches, (entry.1, c) ∉ log)
    (hr : r.perform op = .ok (notices, r₁)) : r.Spares c log r₁ := by
  cases op with
  | touch t consumer =>
    obtain ⟨⟨result, after⟩, htouch, heq⟩ := map_eq_ok.mp hr
    cases heq
    exact spares_touch hm howned (of_decide_eq_false hother)
      (hnew (t.id, consumer) List.mem_cons_self) htouch
  | ack id consumed nonBlocking consumer =>
    obtain ⟨⟨gestures, after⟩, hack, heq⟩ := map_eq_ok.mp hr
    cases heq
    have hne : consumer ≠ c := of_decide_eq_false hother
    have hforeign : (id, c) ∉ log := fun hmem =>
      hne (congrArg Prod.snd (List.inj_on_of_nodup_map hdistinct hop hmem rfl))
    exact spares_ack howned hne (hfiled consumer) hop hforeign hack
  | cancel now consumer =>
    obtain ⟨⟨cancelled, result⟩, hcancel, heq⟩ := map_eq_ok.mp hr
    cases heq
    exact spares_cancel hm howned (of_decide_eq_false hother) hcancel
  | forget consumer =>
    cases hr
    exact spares_forget howned (of_decide_eq_false hother) (hfiled c)
  | tick | configure | addHelper | removeHelper | setIds | cancelOn | cancelExcept | transfer =>
    cases hother

end Router

namespace Session

open Router (Op mem_channels_iff)

variable {s s' : Session} {op : Op} {log : List (EventId × ConsumerId)} {c : ConsumerId}

-- The sessions that separate operations lead to, with the touches of the host so far.
inductive Separate : List (EventId × ConsumerId) → Session → Prop
  | start (settings : Settings) (ids : EventIds) : Separate [] { router := { settings, ids } }
  | step {log : List (EventId × ConsumerId)} {s s' : Session} {op : Op} (h : Separate log s)
    (hop : op.Separate log) (hs : s.perform op = .ok s') : Separate (log ++ op.touches) s'

theorem Separate.reached (h : Separate log s) : Reached (fun _ _ => True) s := by
  induction h with
  | start settings ids => exact .start settings ids
  | step _ _ hs ih => exact ih.step trivial hs

-- The numbers of an operation are those of its touches.
theorem numbers_perform (howned : s.router.Owned) (hop : op.Separate log)
    (hs : s.perform op = .ok s') : s'.numbers = s.numbers ++ s.router.spent op := by
  cases op with
  | touch t consumer => exact (awaiting_touch hs).2
  | cancel now consumer =>
    change s.play (s.router.cancelActs now consumer) = .ok s' at hs
    unfold Router.cancelActs at hs
    simp only [Router.spent, Router.liveCount]
    cases howner : s.router.owners[consumer]? with
    | none =>
      rw [howner] at hs
      cases hs
      rw [howned.channel?_eq_none_iff.mpr howner]
      simp [EventIds.drawn]
    | some key =>
      obtain ⟨channel, hlive⟩ := mem_channels_iff.mp (howned.live howner)
      rw [howner] at hs
      obtain ⟨_, _, -, rfl⟩ := act_eq_ok (play_singleton.mp hs)
      rw [Router.channel?_of_live howner hlive]
      simp [Router.numbersOf, hlive, ContactTable.cancels_eq, map_id_synthesizeAll]
  | tick now =>
    simp only [Router.spent, List.append_nil]
    refine play_induction (P := fun s₁ => s₁.numbers = s.numbers) rfl ?_ hs
    intro s₁ s₂ a ha hnumbers hact
    obtain ⟨key, -, rfl⟩ := List.mem_map.mp ha
    obtain ⟨_, _, -, rfl⟩ := act_eq_ok hact
    simpa [Router.numbersOf] using hnumbers
  | ack | forget | configure | addHelper | removeHelper | setIds =>
    obtain ⟨_, _, -, rfl⟩ := act_eq_ok (play_singleton.mp hs)
    rfl
  | cancelOn | cancelExcept | transfer => exact absurd hop id

-- The touches of the host have the numbers that it gave them.
theorem Separate.sublist (h : Separate log s) : (log.map (·.1)).Sublist s.numbers := by
  induction h with
  | start => exact List.Sublist.refl _
  | @step log s s' op h hop hs ih =>
    rw [numbers_perform h.reached.owned hop hs, List.map_append]
    refine ih.append ?_
    cases op with
    | touch t consumer => exact List.Sublist.refl _
    | _ => exact List.nil_sublist _

theorem Separate.numberless (h : Separate log s) :
    ∀ entry ∈ s.router.helpers, entry.2.Numberless := by
  induction h with
  | start => simp
  | @step log s s' op h hop hs ih =>
    obtain ⟨notices, hr⟩ := perform_router hs
    rw [(Router.perform_frame h.reached.owned hop hr).2]
    intro entry hentry
    cases op with
    | addHelper helper =>
      rcases List.mem_append.mp hentry with hentry | hentry
      · exact ih entry hentry
      · cases List.mem_singleton.mp hentry
        exact hop
    | removeHelper id => exact ih entry (List.mem_of_mem_filter hentry)
    | _ => exact ih entry hentry

-- A touch with a new number awaits no verdict.
theorem Consistent.of_not_mem_numbers {id : EventId} (h : s.Consistent) (hid : id ∉ s.numbers) :
    id ∉ s.router.events ∧ id ∉ s.router.orphans := by
  refine ⟨fun hmem => ?_, fun hmem => ?_⟩
  · obtain ⟨key, hevent⟩ := Option.isSome_iff_exists.mp
      (Std.ExtTreeMap.mem_iff_isSome_getElem?.mp hmem)
    exact hid (h.awaited _ (h.events.mp hevent).1).1
  · obtain ⟨key, hmem, -⟩ := h.orphans.mp hmem
    exact hid (h.awaited _ hmem).1

-- The touches of an operation are new.
theorem Separate.fresh (h : Separate log s) (hop : op.Separate log) (hs : s.perform op = .ok s')
    (hnodup : s'.numbers.Nodup) :
    ∀ entry ∈ op.touches, entry.1 ∉ s.numbers ∧ ∀ consumer, (entry.1, consumer) ∉ log := by
  rw [numbers_perform h.reached.owned hop hs] at hnodup
  have hnew : ∀ entry ∈ op.touches, entry.1 ∉ s.numbers := by
    intro entry hentry hid
    cases op with
    | touch t consumer =>
      cases List.mem_singleton.mp hentry
      exact (List.nodup_append.mp hnodup).2.2 t.id hid t.id (List.mem_singleton.mpr rfl) rfl
    | _ => cases hentry
  exact fun entry hentry => ⟨hnew entry hentry, fun consumer hmem =>
    hnew entry hentry (h.sublist.subset (List.mem_map.mpr ⟨_, hmem, rfl⟩))⟩

theorem Separate.filed (h : Separate log s) (hnodup : s.numbers.Nodup) (c : ConsumerId) :
    s.router.Filed c log := by
  induction h with
  | start => exact ⟨by simp⟩
  | @step log s s' op h hop hs ih =>
    have hnodup₀ := (prefix_numbers_play hs).sublist.nodup hnodup
    obtain ⟨notices, hr⟩ := perform_router hs
    refine (ih hnodup₀).perform h.reached.owned hop (fun entry hentry => ?_) hr
    obtain ⟨hnew, hlog⟩ := h.fresh hop hs hnodup entry hentry
    exact ⟨hlog, ((h.reached.consistent hnodup₀).of_not_mem_numbers hnew).1⟩

theorem Reached.named {permits : Session → Op → Prop} (h : Reached permits s) :
    s.router.Named where
  consumer := by
    intro consumer channel hchannel
    obtain ⟨key, howner, hlive⟩ := Router.channel?_eq_some_iff.mp hchannel
    obtain ⟨k, hk, haccounts⟩ := h.mirrors.book hlive
    rw [haccounts.channel_eq hlive]
    exact h.attributed consumer key k howner hk

end Session

end TouchGestures
