import TouchGestures.Proofs.Channel.Settling
import TouchGestures.Proofs.Router.Soundness

namespace TouchGestures

open Channel (Chronicle)

-- A queue in which nothing awaits a verdict is empty.
theorem Release.Queue.HeadPending.packets_eq_nil {q : Queue} (h : q.HeadPending)
    (hids : q.pendingIds = []) : q.packets = [] := by
  match hq : q.packets with
  | [] => rfl
  | p :: rest =>
    have hp : p.isPending = true := h p (by simp [hq])
    unfold pendingIds at hids
    rw [hq, List.filter_cons_of_pos hp] at hids
    cases hids

namespace Session

open Router (mem_channels_iff)

variable {s s' : Session} {key : ChannelKey} {k : Chronicle}

-- The host gives all verdicts that are awaited, those of a channel in their order, and does
-- nothing else.
inductive Settles : Session → Session → Prop
  | done {s : Session} (h : s.awaiting = []) : Settles s s
  | step {s s' s'' : Session} {id : EventId} {consumed nonBlocking : Bool} {consumer : ConsumerId}
    (hmay : s.MayAck id) (hs : s.perform (.ack id consumed nonBlocking consumer) = .ok s')
    (h : Settles s' s'') : Settles s s''

theorem Settles.numbers (h : s.Settles s') : s'.numbers = s.numbers := by
  induction h with
  | done => rfl
  | step _ hs _ ih =>
    obtain ⟨s₁, hact, hnil⟩ := bind_eq_ok.mp hs
    cases hnil
    obtain ⟨handouts, router, -, rfl⟩ := act_eq_ok hact
    rw [ih]
    exact List.append_nil _

theorem Sound.ack {id : EventId} {consumed nonBlocking : Bool} {consumer : ConsumerId}
    (h : s.Sound) (hmay : s.MayAck id) (hnodup : s'.numbers.Nodup)
    (hs : s.perform (.ack id consumed nonBlocking consumer) = .ok s') : s'.Sound := by
  have hop : s.Orderly (.ack id consumed nonBlocking consumer) := hmay
  exact h.perform hop hnodup hs

theorem Sound.settles (h : s.Sound) (hsettles : s.Settles s') (hnodup : s'.numbers.Nodup) :
    s'.Sound := by
  induction hsettles with
  | done => exact h
  | step hmay hs hrest ih =>
    rw [hrest.numbers] at hnodup
    exact ih (h.ack hmay hnodup hs) (by rwa [hrest.numbers])

-- A verdict reaches the oldest packet of its channel, and no other channel.
theorem Sound.perform_ack {id : EventId} {consumed nonBlocking : Bool} {consumer : ConsumerId}
    (h : s.Sound) (hmay : s.MayAck id)
    (hs : s.perform (.ack id consumed nonBlocking consumer) = .ok s') :
    (∀ key, key ∈ s'.router.channels ↔ key ∈ s.router.channels) ∧
      ∀ key k, s.books key = some k → s'.books key = some k ∨
        key ∈ s.router.channels ∧ ∃ p rest acked, k.channel.queue.packets = p :: rest ∧
          p.isPending = true ∧ p.ack consumed nonBlocking = .ok acked ∧
          k.channel.queue.judge id consumed nonBlocking = .ok (acked :: rest) ∧
          s'.books key = some ((k.next (.ack id consumed nonBlocking)).next .drain) := by
  obtain ⟨s₁, hact, hnil⟩ := bind_eq_ok.mp hs
  cases hnil
  obtain ⟨handouts, router, hr, rfl⟩ := act_eq_ok hact
  obtain ⟨⟨gestures, after⟩, hack, heq⟩ := map_eq_ok.mp hr
  cases heq
  obtain ⟨asked, later, hids⟩ := mayAck_iff.mp hmay
  have hmem : (asked, id) ∈ s.awaiting := mem_awaitingOn.mp (by simp [hids])
  by_cases hlive : asked ∈ s.router.channels
  · obtain ⟨k₀, p, rest, acked, channel, hk₀, hpackets, hp, -, -, hacked, hjudge, -, hresult⟩ :=
      h.consistent.ack_of_live h.mirrors hids hlive consumed nonBlocking
    rw [hresult, Except.ok.injEq, Prod.mk.injEq] at hack
    obtain ⟨-, rfl⟩ := hack
    obtain ⟨hevent, horphan⟩ := h.consistent.event_of_mem hmem hlive
    refine ⟨fun key => ?_, fun key k hk => ?_⟩
    · exact Router.mem_channels_put
        (r := { s.router with events := s.router.events.erase id }) hk₀.live key
    · by_cases hkey : key = asked
      · subst hkey
        obtain ⟨k₁, hk₁, haccounts⟩ := h.mirrors.book hk₀.live
        rw [hk] at hk₁
        cases hk₁
        have hsame := haccounts.channel_eq hk₀.live
        rw [hsame] at hpackets hjudge
        refine .inr ⟨hlive, p, rest, acked, hpackets, hp, hacked, hjudge, ?_⟩
        simp [Router.record, horphan, Router.awaiting?, hevent, Router.amend, hlive, hk]
      · left
        simp [Router.record, horphan, Router.awaiting?, hevent, Router.amend, hkey, hk]
  · rw [h.consistent.ack_of_gone hmem hlive, Except.ok.injEq, Prod.mk.injEq] at hack
    obtain ⟨-, rfl⟩ := hack
    have horphan : id ∈ s.router.orphans := h.consistent.orphans.mpr ⟨asked, hmem, hlive⟩
    refine ⟨fun _ => Iff.rfl, fun key k hk => .inl ?_⟩
    simp [Router.record, horphan, hk]

-- When all verdicts are given, nothing waits in a channel that is there.
theorem Sound.settling_of_live {start : Chronicle} {released : List Packet} (h : s.Sound)
    (hsettles : s.Settles s') (hnodup : s'.numbers.Nodup) (hk : s.books key = some k)
    (hlive : key ∈ s.router.channels) (hsettling : Chronicle.Settling start k released) :
    ∃ k' released', s'.books key = some k' ∧ Chronicle.Settling start k' released' ∧
      k'.channel.queue.packets = [] := by
  induction hsettles generalizing k released with
  | done hawaiting =>
    refine ⟨k, released, hk, hsettling, ?_⟩
    obtain ⟨k₁, hk₁, haccounts⟩ := h.mirrors.book (mem_channels_iff.mp hlive).choose_spec
    rw [hk] at hk₁
    cases hk₁
    have hpending := h.consistent.pending haccounts.live
    refine haccounts.lived.sound.head.packets_eq_nil (hpending.trans ?_)
    simp [awaitingOn, hawaiting]
  | step hmay hs hrest ih =>
    have hnodup₁ := hnodup
    rw [hrest.numbers] at hnodup₁
    obtain ⟨hchannels, hbooks⟩ := h.perform_ack hmay hs
    have hsound := h.ack hmay hnodup₁ hs
    obtain hsame | ⟨-, p, rest, acked, hpackets, hp, hacked, hjudge, hk'⟩ := hbooks key k hk
    · exact ih hsound hnodup hsame ((hchannels key).mpr hlive) hsettling
    · exact ih hsound hnodup hk' ((hchannels key).mpr hlive)
        (hsettling.ack hpackets hp hacked hjudge)

-- Nothing happens any more to a channel that is gone.
theorem Sound.books_of_gone (h : s.Sound) (hsettles : s.Settles s') (hnodup : s'.numbers.Nodup)
    (hk : s.books key = some k) (hgone : key ∉ s.router.channels) : s'.books key = some k := by
  induction hsettles with
  | done => exact hk
  | step hmay hs hrest ih =>
    have hnodup₁ := hnodup
    rw [hrest.numbers] at hnodup₁
    obtain ⟨hchannels, hbooks⟩ := h.perform_ack hmay hs
    have hsound := h.ack hmay hnodup₁ hs
    obtain hsame | ⟨hlive, -⟩ := hbooks key k hk
    · exact ih hsound hnodup hsame fun hlive => hgone ((hchannels key).mp hlive)
    · exact absurd hlive hgone

end Session

end TouchGestures
