import TouchGestures.Proofs.Router.Alike.Basic
import TouchGestures.Proofs.Router.Progress

namespace TouchGestures

open Channel (Chronicle)

namespace Router

variable {r r' : Router} {books : Books} {consumer : ConsumerId} {key : ChannelKey}
  {channel : Channel} {t : Touch} {result : TouchResult}

-- A channel that turns a touch down stays as it was.
theorem Accounts.channel_of_rejected {k : Chronicle} {channel' : Channel} (h : r.Accounts key k)
    (hlive : r.channels[key]? = some channel) (htouch : channel.touch t = .ok (result, channel'))
    (hrejected : result.accepted = false) : channel' = channel := by
  obtain rfl := h.channel_eq hlive
  exact Channel.eq_of_rejected h.lived.sound.head h.lived.sound.settled htouch hrejected

-- Of a touch that is turned down nothing stays but the channel that its consumer got.
theorem eq_obtain_of_rejected (hm : r.Mirrors books) (howned : r.Owned)
    (htouch : r.touch t consumer = .ok (result, r')) (hrejected : result.accepted = false) :
    r' = (r.obtain consumer).2 := by
  rw [touch_eq howned] at htouch
  obtain ⟨⟨answer, channel⟩, htouched, heq⟩ := map_eq_ok.mp htouch
  cases heq
  have hlive := obtain_live (c := consumer) howned
  obtain ⟨k, -, hk⟩ := hm.obtain.book hlive
  rw [hk.channel_of_rejected hlive htouched hrejected, store, hrejected]
  exact put_self hlive

theorem obtain_eq_self_iff :
    (r.obtain consumer).2 = r ↔ r.hasChannel consumer = true := by
  rw [hasChannel_eq_isSome]
  unfold obtain
  cases r.owners[consumer]? with
  | some key => simp
  | none =>
    refine iff_of_false (fun heq => ?_) (by simp)
    have hnext := congrArg Router.nextKey heq
    simp at hnext

theorem hasChannel_obtain (other : ConsumerId) :
    (r.obtain consumer).2.hasChannel other = (decide (other = consumer) || r.hasChannel other) := by
  rw [hasChannel_eq_isSome, hasChannel_eq_isSome, getElem?_owners_obtain]
  by_cases hother : consumer = other
  · simp [hother]
  · simp [hother, Ne.symm hother]

-- A consumer that has got a new channel is answerable for it: a verdict on a touch that no
-- channel awaits used to go unheard, and is a violation now.
theorem ack_obtain (hnone : r.hasChannel consumer = false) {id : EventId} (hevent : id ∉ r.events)
    (horphan : id ∉ r.orphans) (consumed nonBlocking : Bool) :
    (r.ack id consumed nonBlocking consumer).map (·.1) = .ok [] ∧
      (r.obtain consumer).2.ack id consumed nonBlocking consumer =
        .error (.noPendingPacket id) := by
  have howner : r.owners[consumer]? = none := hasChannel_eq_false_iff.mp hnone
  have hunseen : r.events[id]? = none := Std.ExtTreeMap.getElem?_eq_none hevent
  constructor
  · simp [Router.ack, awaiting?, horphan, hunseen, howner]
  · have hkey : (r.obtain consumer).2.awaiting? id consumer = some r.nextKey := by
      simp [awaiting?, obtain, howner, hunseen]
    have hlive : (r.obtain consumer).2.channels[r.nextKey]? =
        some (Channel.ofSettings consumer r.settings.channel) := by
      simp [obtain, howner]
    have horphan' : id ∉ (r.obtain consumer).2.orphans := by simpa [obtain, howner] using horphan
    simp only [Router.ack, Std.ExtTreeSet.contains_iff_mem, horphan', if_false, hkey, hlive]
    rfl

end Router

namespace Session

variable {permits : Session → Router.Op → Prop} {s : Session}

-- A touch always gets an answer. One that is turned down leaves everything as it was just if
-- its consumer had a channel. Otherwise the consumer has one from then on, a new one that
-- has seen no touch, and this shows, also in what becomes of verdicts. Nothing else changes.
theorem Reached.unchanged_iff_of_rejected (h : Reached permits s) (t : Touch)
    (consumer : ConsumerId) :
    ∃ result router, s.router.touch t consumer = .ok (result, router) ∧
      (result.accepted = false →
        router = (s.router.obtain consumer).2 ∧
        (router = s.router ↔ s.router.hasChannel consumer = true) ∧
        (router.hasChannel = s.router.hasChannel ↔ s.router.hasChannel consumer = true) ∧
        (s.router.hasChannel consumer = false →
          ∀ id ∉ s.router.events, id ∉ s.router.orphans → ∀ consumed nonBlocking,
            (s.router.ack id consumed nonBlocking consumer).map (·.1) = .ok [] ∧
              router.ack id consumed nonBlocking consumer = .error (.noPendingPacket id))) := by
  obtain ⟨⟨result, router⟩, htouch⟩ := Router.exists_touch h.mirrors t consumer
  refine ⟨result, router, htouch, fun hrejected => ?_⟩
  obtain rfl := Router.eq_obtain_of_rejected h.mirrors h.owned htouch hrejected
  refine ⟨rfl, Router.obtain_eq_self_iff, ⟨fun hsame => ?_, fun hhas => ?_⟩,
    fun hnone id hevent horphan => Router.ack_obtain hnone hevent horphan⟩
  · rw [← congrFun hsame consumer, Router.hasChannel_obtain]
    simp
  · rw [Router.obtain_eq_self_iff.mpr hhas]

def lonePress : Session := (start 1).attempt (.touch (Channel.finger .pressed 1 10 0 1) 1)

theorem reached_lonePress : Reached (fun _ _ => True) lonePress :=
  (Reached.start {} ⟨1⟩).attempt trivial

-- A finger that never came down moves for the consumer.
theorem unchanged_of_lonePress :
    Reached (fun _ _ => True) lonePress ∧
      lonePress.router.hasChannel 1 = true ∧
      ∃ result, lonePress.router.touch (Channel.finger .moved 2 30 10 2) 1 =
        .ok (result, lonePress.router) ∧ result.accepted = false := by
  obtain ⟨result, router, htouch, hrejected⟩ :=
    reached_lonePress.unchanged_iff_of_rejected (Channel.finger .moved 2 30 10 2) 1
  have hanswer : (lonePress.router.touch (Channel.finger .moved 2 30 10 2) 1).map
      (fun answer => answer.1.accepted) = .ok false := by
    decide +kernel
  rw [htouch, ok_map, Except.ok.injEq] at hanswer
  have hhas : lonePress.router.hasChannel 1 = true := by decide +kernel
  obtain ⟨-, hsame, -, -⟩ := hrejected hanswer
  rw [hsame.mpr hhas] at htouch
  exact ⟨reached_lonePress, hhas, result, htouch, hanswer⟩

-- It moves for another consumer, which has a channel afterwards though no touch of it was
-- ever accepted.
theorem changed_of_strayMove :
    Reached (fun _ _ => True) lonePress ∧
      ((lonePress.router.touch (Channel.finger .moved 2 30 10 2) 5).map fun (result, router) =>
        (result.accepted, router.hasChannel 5)) = .ok (false, true) ∧
      lonePress.router.hasChannel 5 = false := by
  refine ⟨reached_lonePress, ?_⟩
  decide +kernel

end Session

end TouchGestures
