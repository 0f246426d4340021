import Mathlib.Data.List.Forall2
import TouchGestures.Proofs.Channel.Reentry

namespace TouchGestures

-- The same packet, perhaps with its verdict by now.
def Packet.Later (p q : Packet) : Prop :=
  q.unjudged = p.unjudged ∧ (p.isPending = false → q = p)

theorem Packet.later_refl (p : Packet) : p.Later p := ⟨rfl, fun _ => rfl⟩

theorem Packet.Later.ack {p q acked : Packet} {consumed nonBlocking : Bool} (h : p.Later q)
    (hq : q.isPending = true) (hack : q.ack consumed nonBlocking = .ok acked) : p.Later acked := by
  refine ⟨(unjudged_of_ack hack).trans h.1, fun hjudged => ?_⟩
  rw [h.2 hjudged, hjudged] at hq
  cases hq

theorem forall₂_later_ack {packets before after : List Packet} {q acked : Packet}
    {consumed nonBlocking : Bool} (h : List.Forall₂ Packet.Later packets (before ++ q :: after))
    (hq : q.isPending = true) (hack : q.ack consumed nonBlocking = .ok acked) :
    List.Forall₂ Packet.Later packets (before ++ acked :: after) := by
  induction before generalizing packets with
  | nil =>
    obtain ⟨p, rest, hp, hrest, rfl⟩ := List.forall₂_cons_right_iff.mp h
    exact .cons (hp.ack hq hack) hrest
  | cons first others ih =>
    obtain ⟨p, rest, hp, hrest, rfl⟩ := List.forall₂_cons_right_iff.mp h
    exact .cons hp (ih hrest)

theorem map_unjudged_of_forall₂ {first second : List Packet}
    (h : List.Forall₂ Packet.Later first second) :
    second.map Packet.unjudged = first.map Packet.unjudged := by
  induction h with
  | nil => rfl
  | cons hp _ ih => rw [List.map_cons, List.map_cons, hp.1, ih]

-- What has its verdict stays as it is.
theorem eq_of_forall₂_judged {first second : List Packet}
    (h : List.Forall₂ Packet.Later first second) (hjudged : ∀ p ∈ first, p.isPending = false) :
    second = first := by
  induction h with
  | nil => rfl
  | cons hp _ ih =>
    rw [hp.2 (hjudged _ List.mem_cons_self), ih fun p hp => hjudged p (List.mem_cons_of_mem _ hp)]

namespace Channel.Chronicle

open Release (Queue)

variable {k k₁ : Chronicle} {released : List Packet}

-- What a channel has come to by verdicts on its oldest packets.
structure Settling (k k₁ : Chronicle) (released : List Packet) : Prop where
  items : k₁.items = k.items ++ released.map .packet
  packets : List.Forall₂ Packet.Later k.channel.queue.packets
    (released ++ k₁.channel.queue.packets)
  contacts : k₁.channel.contacts = k.channel.contacts

theorem settling_refl (k : Chronicle) : Settling k k [] where
  items := by simp
  packets := List.forall₂_same.mpr fun p _ => p.later_refl
  contacts := rfl

theorem Settling.ack {p acked : Packet} {rest : List Packet} {id : EventId}
    {consumed nonBlocking : Bool} (h : Settling k k₁ released)
    (hpackets : k₁.channel.queue.packets = p :: rest) (hp : p.isPending = true)
    (hack : p.ack consumed nonBlocking = .ok acked)
    (hjudge : k₁.channel.queue.judge id consumed nonBlocking = .ok (acked :: rest)) :
    Settling k ((k₁.next (.ack id consumed nonBlocking)).next .drain)
      (released ++ Queue.ready (acked :: rest)) := by
  obtain ⟨hqueue, hitems, -⟩ := next_of_judge hjudge
  have hdrain := next_of_step (k := k₁.next (.ack id consumed nonBlocking)) (e := .drain) rfl
  refine ⟨?_, ?_, ?_⟩
  · rw [hdrain]
    simp [itemsBy, hitems, h.items]
  · have hwaiting : ((k₁.next (.ack id consumed nonBlocking)).next .drain).channel.queue.packets =
        Queue.waiting (acked :: rest) := by
      rw [hdrain]
      exact congrArg Queue.packets hqueue
    rw [hwaiting, List.append_assoc, Queue.ready_append_waiting]
    have hbefore := h.packets
    rw [hpackets] at hbefore
    exact forall₂_later_ack hbefore hp hack
  · rw [contacts_next_drain, contacts_next_ack, h.contacts]

end Channel.Chronicle

end TouchGestures
