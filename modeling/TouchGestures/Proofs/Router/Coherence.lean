import TouchGestures.Proofs.Router.Everywhere

namespace TouchGestures

namespace Session

open Channel (Chronicle)
open Router (Act Op mem_channels_iff)

variable {s s' : Session} {a : Act}

-- Whatever a host does, channels are owned by whom they name.
theorem Reached.attributed {permits : Session → Op → Prop} (h : Reached permits s) :
    s.Everywhere fun _ consumer k => k.channel.consumer = consumer := by
  refine h.everywhere ⟨fun _ _ => rfl, fun hlived hevolves hconsumer => ?_, fun target k _ => ?_⟩
    fun {settings settings' consumer k} hconsumer => ?_
  · exact (hevolves.fixed hlived).1.trans hconsumer
  · rw [Chronicle.next_of_step (k := k) (e := .reassign target) rfl]
    rfl
  · rw [Chronicle.next_of_step (k := k) (e := .configure settings'.channel) rfl]
    exact hconsumer

theorem Reached.consistent {permits : Session → Op → Prop} (h : Reached permits s)
    (hnodup : s.numbers.Nodup) : s.Consistent := by
  refine h.induct (P := fun s => s.numbers.Nodup → s.Consistent)
    (fun settings ids _ => consistent_start settings ids) ?_ hnodup
  intro s s' a hm _ hs hact hnodup
  obtain ⟨handouts, router, hr, rfl⟩ := act_eq_ok hact
  exact (hs (List.nodup_append.mp hnodup).1).act hm hnodup hr

section Log

def acceptedBy (s : Session) : Op → List EventId
  | .touch t consumer => if s.router.accepts t consumer then [t.id] else []
  | _ => []

-- The sessions that a host can reach, with the touches from devices that were accepted on
-- the way, in the order in which they were.
inductive Logged : List EventId → Session → Prop
  | start (settings : Settings) (ids : EventIds) : Logged [] { router := { settings, ids } }
  | step {log : List EventId} {s s' : Session} {op : Op} (h : Logged log s)
    (hs : s.perform op = .ok s') : Logged (log ++ s.acceptedBy op) s'

variable {log : List EventId}

theorem acceptedBy_of_ne {op : Op} (hop : ∀ t consumer, op ≠ .touch t consumer) :
    s.acceptedBy op = [] := by
  cases op with
  | touch t consumer => exact absurd rfl (hop t consumer)
  | _ => rfl

-- A touch that is accepted awaits its verdict behind all others.
theorem awaiting_touch {t : Touch} {consumer : ConsumerId}
    (hs : s.perform (.touch t consumer) = .ok s') :
    s'.awaiting.map (·.2) = s.awaiting.map (·.2) ++ s.acceptedBy (.touch t consumer) ∧
      s'.numbers = s.numbers ++ [t.id] := by
  have hact := play_singleton.mp hs
  obtain ⟨result, htouch⟩ := touch_of_act hact
  obtain ⟨handouts, router, -, rfl⟩ := act_eq_ok hact
  refine ⟨?_, rfl⟩
  simp only [acceptedBy, Router.awaitingAfter, htouch, Router.accepts_of_touch htouch]
  split <;> simp

theorem Logged.reached (h : Logged log s) : Reached (fun _ _ => True) s := by
  induction h with
  | start settings ids => exact .start settings ids
  | step _ hs ih => exact ih.step trivial hs

-- What awaits a verdict is among what was accepted, in the same order.
theorem Logged.sublist (h : Logged log s) : (s.awaiting.map (·.2)).Sublist log := by
  induction h with
  | start => exact List.Sublist.refl _
  | @step log s s' op _ hs ih =>
    by_cases htouch : ∃ t consumer, op = .touch t consumer
    · obtain ⟨t, consumer, rfl⟩ := htouch
      rw [(awaiting_touch hs).1]
      exact ih.append (List.Sublist.refl _)
    · have hop : ∀ t consumer, op ≠ .touch t consumer :=
        fun t consumer heq => htouch ⟨t, consumer, heq⟩
      rw [acceptedBy_of_ne hop, List.append_nil]
      refine play_induction (P := fun s => (s.awaiting.map (·.2)).Sublist log) ih ?_ hs
      intro s₁ s₂ a ha hsublist hact
      obtain ⟨handouts, router, -, rfl⟩ := act_eq_ok hact
      cases a with
      | touch t consumer => exact absurd (Router.eq_of_mem_acts ha rfl) (hop t consumer)
      | ack => exact (List.filter_sublist.map _).trans hsublist
      | _ => exact hsublist

theorem Logged.nodup (h : Logged log s) (hnodup : s.numbers.Nodup) : log.Nodup := by
  refine List.Sublist.nodup ?_ hnodup
  clear hnodup
  induction h with
  | start => exact List.Sublist.refl _
  | @step log s s' op _ hs ih =>
    by_cases htouch : ∃ t consumer, op = .touch t consumer
    · obtain ⟨t, consumer, rfl⟩ := htouch
      rw [(awaiting_touch hs).2]
      refine ih.append ?_
      simp only [acceptedBy]
      split <;> simp
    · rw [acceptedBy_of_ne fun t consumer heq => htouch ⟨t, consumer, heq⟩, List.append_nil]
      exact ih.trans (prefix_numbers_play hs).sublist

theorem filter_mem_of_sublist {first second : List EventId} (h : first.Sublist second)
    (hnodup : second.Nodup) : (second.filter fun id => id ∈ first) = first := by
  induction h with
  | slnil => rfl
  | @cons first second id h ih =>
    obtain ⟨hid, hnodup⟩ := List.nodup_cons.mp hnodup
    rw [List.filter_cons_of_neg (by simpa using fun hmem => hid (h.subset hmem)), ih hnodup]
  | @cons_cons first second id h ih =>
    obtain ⟨hid, hnodup⟩ := List.nodup_cons.mp hnodup
    rw [List.filter_cons_of_pos (by simp)]
    congr 1
    refine Eq.trans (List.filter_congr fun other hother => ?_) (ih hnodup)
    have hne : other ≠ id := fun heq => hid (heq ▸ hother)
    simp [hne]

end Log

-- Everything that a router keeps about its channels fits together: each has one owner, which
-- it names, and is waiting for the verdicts on the touches of the log that are indexed to
-- it, in the order of the log.
structure Coherent (r : Router) (log : List EventId) : Prop where
  live : ∀ {consumer : ConsumerId} {key : ChannelKey}, r.owners[consumer]? = some key →
    key ∈ r.channels
  owner : ∀ {key : ChannelKey}, key ∈ r.channels →
    ∃! consumer : ConsumerId, r.owners[consumer]? = some key
  consumer : ∀ {consumer : ConsumerId} {channel : Channel}, r.channel? consumer = some channel →
    channel.consumer = consumer
  indexed : ∀ {id : EventId} {key : ChannelKey}, r.events[id]? = some key → key ∈ r.channels
  orphans : ∀ {id : EventId}, id ∈ r.orphans → r.events[id]? = none
  pending : ∀ {key : ChannelKey} {channel : Channel}, r.channels[key]? = some channel →
    channel.queue.pendingIds = log.filter fun id => r.events[id]? = some key

theorem Logged.coherent {log : List EventId} (h : Logged log s) (hnodup : s.numbers.Nodup) :
    Coherent s.router log := by
  have howned := h.reached.owned
  have hconsistent := h.reached.consistent hnodup
  have hmirrors := h.reached.mirrors
  refine ⟨howned.live, fun {key} hlive => ?_, fun {consumer channel} hchannel => ?_,
    fun hevent => ?_, fun {id} horphan => ?_, fun {key channel} hchannel => ?_⟩
  · obtain ⟨consumer, howner⟩ := howned.owned hlive
    exact ⟨consumer, howner, fun other hother => howned.single hother howner⟩
  · obtain ⟨key, howner, hchannel⟩ := Router.channel?_eq_some_iff.mp hchannel
    obtain ⟨k, hk, haccounts⟩ := hmirrors.book hchannel
    rw [haccounts.channel_eq hchannel]
    exact h.reached.attributed consumer key k howner hk
  · exact (hconsistent.events.mp hevent).2
  · obtain ⟨key, hmem, hgone⟩ := hconsistent.orphans.mp horphan
    refine Option.eq_none_iff_forall_ne_some.mpr fun other hevent => ?_
    obtain ⟨hother, hlive⟩ := hconsistent.events.mp hevent
    have hsame : (other, id) = (key, id) :=
      List.inj_on_of_nodup_map hconsistent.distinct hother hmem rfl
    cases hsame
    exact hgone hlive
  · have hlive : key ∈ s.router.channels := mem_channels_iff.mpr ⟨channel, hchannel⟩
    have hsublist : (s.awaitingOn key).Sublist log :=
      (List.filter_sublist.map _).trans h.sublist
    rw [hconsistent.pending hchannel, ← filter_mem_of_sublist hsublist (h.nodup hnodup)]
    refine List.filter_congr fun id _ => ?_
    rw [decide_eq_decide, mem_awaitingOn, hconsistent.events]
    exact (and_iff_left hlive).symm

theorem Logged.attempt {log log' : List EventId} {op : Op} (h : Logged log s)
    (hs : (s.perform op).toBool = true) (hlog : log ++ s.acceptedBy op = log') :
    Logged log' (s.attempt op) :=
  hlog ▸ h.step (perform_attempt hs)

-- A press and a move of one consumer and a press of another.
def parted : Session :=
  (((start 5).attempt (.touch (Channel.finger .pressed 1 10 0 1) 1)).attempt
    (.touch (Channel.finger .moved 1 50 10 2) 1)).attempt
    (.touch (Channel.finger .pressed 2 10 20 3) 2)

-- The first one's stream replaces that of the second. A third consumer is touched, and the
-- first verdict comes.
def merged : Session :=
  ((parted.attempt (.transfer (.still 30) 1 2 .cancelling)).attempt
    (.touch (Channel.finger .pressed 3 10 40 4) 3)).attempt (.ack 1 false false 1)

theorem logged_merged : Logged [1, 2, 3, 4] merged := by
  have hparted : Logged [1, 2, 3] parted :=
    (((Logged.start {} ⟨5⟩).attempt (by decide +kernel) rfl).attempt (by decide +kernel)
      rfl).attempt (by decide +kernel) (by decide +kernel)
  exact ((hparted.attempt (by decide +kernel) rfl).attempt (by decide +kernel) rfl).attempt
    (by decide +kernel) (by decide +kernel)

theorem coherent_merged :
    Logged [1, 2, 3, 4] merged ∧ merged.numbers.Nodup ∧ Coherent merged.router [1, 2, 3, 4] ∧
      merged.router.owners.toList = [(2, 0), (3, 2)] ∧ 3 ∈ merged.router.orphans ∧
      merged.router.channels.toList.map (fun (key, channel) => (key, channel.queue.pendingIds)) =
        [(0, [2]), (2, [4])] := by
  have hnodup : merged.numbers.Nodup := by decide +kernel
  exact ⟨logged_merged, hnodup, logged_merged.coherent hnodup, by decide +kernel⟩

end Session

end TouchGestures
