import TouchGestures.Proofs.Channel.Answer
import TouchGestures.Proofs.Router.Act

namespace TouchGestures

open Channel (Chronicle)

-- The records of all channels that there have been.
abbrev Books := ChannelKey → Option Chronicle

namespace Router

-- Continues the record of a channel, if the channel is there.
def amend (r : Router) (books : Books) (key : ChannelKey) (f : Chronicle → Chronicle) : Books :=
  fun other => if other = key ∧ key ∈ r.channels then (books other).map f else books other

-- Opens a record for the channel that a consumer is about to get, if it has none.
def enroll (r : Router) (books : Books) (consumer : ConsumerId) : Books :=
  if r.owners.contains consumer then books
  else fun key =>
    if key = r.nextKey then some { channel := Channel.ofSettings consumer r.settings.channel }
    else books key

def record (r : Router) (books : Books) : Act → Books
  | .touch t consumer =>
    (r.obtain consumer).2.amend (r.enroll books consumer) (r.obtain consumer).1 (·.next (.touch t))
  | .ack id consumed nonBlocking consumer =>
    if id ∈ r.orphans then books
    else
      match r.awaiting? id consumer with
      | none => books
      | some key => r.amend books key fun k => (k.next (.ack id consumed nonBlocking)).next .drain
  | .cancelChannel now consumer key =>
    let touches := (r.channels[key]?.map fun c => (c.contacts.cancels now r.ids).1).getD []
    r.amend books key fun k => touches.foldl (·.inject (r.handles consumer)) k
  | .reenter clock key contacts =>
    r.amend books key (·.reenter (synthesizeAll .pressed clock contacts r.ids).1)
  | .tick now key => r.amend books key (·.next (.tick now))
  | .forgetHistory key => r.amend books key (·.next .forgetHistory)
  | .reassign _ target key => r.amend books key (·.next (.reassign target))
  | .configure settings => fun key =>
    if key ∈ r.channels then (books key).map (·.next (.configure settings.channel)) else books key
  | _ => books

-- The numbers of the touches that occur in a step, also of those that are turned down.
def numbersOf (r : Router) : Act → List EventId
  | .touch t _ => [t.id]
  | .cancelChannel now _ key =>
    ((r.channels[key]?.map fun c => (c.contacts.cancels now r.ids).1).getD []).map (·.id)
  | .reenter clock key contacts =>
    if key ∈ r.channels then (synthesizeAll .pressed clock contacts r.ids).1.map (·.id) else []
  | _ => []

-- The touches that await a verdict from the host after a step, with the channels that saw
-- them, oldest first.
def awaitingAfter (r : Router) (awaiting : List (ChannelKey × EventId)) :
    Act → List (ChannelKey × EventId)
  | .touch t consumer =>
    match r.touch t consumer with
    | .ok (result, _) =>
      if result.accepted then awaiting ++ [((r.obtain consumer).1, t.id)] else awaiting
    | .error _ => awaiting
  | .ack id .. => awaiting.filter fun (_, other) => other ≠ id
  | _ => awaiting

end Router

-- A router with what is on record about its run: the lives of its channels, the touches
-- that await a verdict, the numbers of all touches, and what the host was given.
structure Session where
  router : Router
  books : Books := fun _ => none
  awaiting : List (ChannelKey × EventId) := []
  numbers : List EventId := []
  handed : List Router.Handout := []

namespace Session

open Router (Act Op Handout)

variable {s s' : Session}

def act (s : Session) (a : Act) : Except Violation Session :=
  (s.router.act a).map fun (handouts, router) =>
    { router
      books := s.router.record s.books a
      awaiting := s.router.awaitingAfter s.awaiting a
      numbers := s.numbers ++ s.router.numbersOf a
      handed := s.handed ++ handouts }

def play (s : Session) : List Act → Except Violation Session
  | [] => .ok s
  | a :: rest => do
    let s ← s.act a
    s.play rest

def perform (s : Session) (op : Op) : Except Violation Session := s.play (s.router.acts op)

def start (next : EventId) : Session := { router := { ids := ⟨next⟩ } }

-- The session after an operation. One that fails is left out.
def attempt (s : Session) (op : Op) : Session :=
  match s.perform op with
  | .ok s => s
  | .error _ => s

-- The touch is the oldest one of its channel that awaits a verdict.
def MayAck (s : Session) (id : EventId) : Prop :=
  ∃ key, (s.awaiting.filter fun entry => entry.1 = key).head? = some (key, id)

-- A host that gives each verdict once, and those on the touches of a channel in their order.
def Orderly (s : Session) : Op → Prop
  | .ack id .. => s.MayAck id
  | _ => True

-- The sessions to which operations lead that a host permits itself.
inductive Reached (permits : Session → Op → Prop) : Session → Prop
  | start (settings : Settings) (ids : EventIds) : Reached permits { router := { settings, ids } }
  | step {s s' : Session} {op : Op} (h : Reached permits s) (hop : permits s op)
    (hs : s.perform op = .ok s') : Reached permits s'

theorem Reached.mono {permits other : Session → Op → Prop} (h : Reached permits s)
    (hmono : ∀ s op, permits s op → other s op) : Reached other s := by
  induction h with
  | start settings ids => exact .start settings ids
  | step _ hop hs ih => exact ih.step (hmono _ _ hop) hs

theorem Reached.attempt {permits : Session → Op → Prop} {op : Op} (h : Reached permits s)
    (hop : permits s op) : Reached permits (s.attempt op) := by
  unfold Session.attempt
  split
  · next s' hs => exact h.step hop hs
  · exact h

theorem perform_attempt {op : Op} (h : (s.perform op).toBool = true) :
    s.perform op = .ok (s.attempt op) := by
  unfold Session.attempt
  split
  · next s' hs => exact hs
  · next violation hs =>
    rw [hs] at h
    cases h

theorem act_eq_ok {a : Act} (h : s.act a = .ok s') :
    ∃ handouts router, s.router.act a = .ok (handouts, router) ∧
      s' = ⟨router, s.router.record s.books a, s.router.awaitingAfter s.awaiting a,
        s.numbers ++ s.router.numbersOf a, s.handed ++ handouts⟩ := by
  obtain ⟨⟨handouts, router⟩, hact, rfl⟩ := map_eq_ok.mp h
  exact ⟨handouts, router, hact, rfl⟩

theorem touch_of_act {t : Touch} {consumer : ConsumerId} (h : s.act (.touch t consumer) = .ok s') :
    ∃ result, s.router.touch t consumer = .ok (result, s'.router) := by
  obtain ⟨handouts, router, hact, rfl⟩ := act_eq_ok h
  obtain ⟨⟨result, after⟩, htouch, heq⟩ := map_eq_ok.mp hact
  cases heq
  exact ⟨result, htouch⟩

theorem play_singleton {a : Act} : s.play [a] = .ok s' ↔ s.act a = .ok s' := by
  rw [play]
  cases s.act a <;> simp [play]

-- The record does not disturb the router: a session leads where its router does, and
-- hands out what that gives notice of.
theorem play_router {acts : List Act} (h : s.play acts = .ok s') :
    ∃ handouts, s.router.play acts = .ok (handouts, s'.router) ∧
      s'.handed = s.handed ++ handouts := by
  induction acts generalizing s with
  | nil =>
    cases h
    exact ⟨[], rfl, by simp⟩
  | cons a rest ih =>
    obtain ⟨s₁, hact, hrest⟩ := bind_eq_ok.mp h
    obtain ⟨first, router, hfirst, rfl⟩ := act_eq_ok hact
    obtain ⟨others, hothers, hhanded⟩ := ih hrest
    refine ⟨first ++ others, ?_, by simp [hhanded]⟩
    rw [Router.play_cons, hfirst, ok_bind, hothers, ok_map]

theorem play_of_router {acts : List Act} {handouts : List Handout} {router : Router}
    (h : s.router.play acts = .ok (handouts, router)) :
    ∃ s', s.play acts = .ok s' ∧ s'.router = router ∧ s'.handed = s.handed ++ handouts := by
  induction acts generalizing s handouts with
  | nil =>
    cases h
    exact ⟨s, rfl, rfl, by simp⟩
  | cons a rest ih =>
    rw [Router.play_cons] at h
    obtain ⟨⟨first, r₁⟩, hfirst, h⟩ := bind_eq_ok.mp h
    obtain ⟨⟨others, r₂⟩, hothers, h⟩ := map_eq_ok.mp h
    cases h
    have hact : s.act a = .ok ⟨r₁, s.router.record s.books a, s.router.awaitingAfter s.awaiting a,
        s.numbers ++ s.router.numbersOf a, s.handed ++ first⟩ := by
      simp [act, hfirst]
    obtain ⟨s', hplay, hrouter, hhanded⟩ := ih (s := ⟨r₁, _, _, _, s.handed ++ first⟩) hothers
    refine ⟨s', ?_, hrouter, by simp [hhanded]⟩
    rw [play, hact, ok_bind, hplay]

-- The sessions are those of the router itself: whatever an operation gives notice of is
-- handed out, and nothing else.
theorem perform_iff {op : Op} {notices : List Notice} {router : Router} :
    s.router.perform op = .ok (notices, router) ↔
      ∃ s' handouts, s.perform op = .ok s' ∧ s'.router = router ∧
        s'.handed = s.handed ++ handouts ∧ handouts.map (·.toNotice) = notices := by
  rw [Router.perform_eq_told, Router.told, map_eq_ok]
  constructor
  · rintro ⟨⟨handouts, r⟩, hplay, heq⟩
    cases heq
    obtain ⟨s', hs', hrouter, hhanded⟩ := play_of_router hplay
    exact ⟨s', handouts, hs', hrouter, hhanded, rfl⟩
  · rintro ⟨s', handouts, hs', rfl, hhanded, rfl⟩
    obtain ⟨handouts', hplay, hhanded'⟩ := play_router hs'
    rw [hhanded] at hhanded'
    obtain rfl := List.append_cancel_left hhanded'
    exact ⟨(handouts, s'.router), hplay, rfl⟩

theorem perform_router {op : Op} (hs : s.perform op = .ok s') :
    ∃ notices, s.router.perform op = .ok (notices, s'.router) := by
  obtain ⟨handouts, -, hhanded⟩ := play_router hs
  exact ⟨_, perform_iff.mpr ⟨s', handouts, hs, rfl, hhanded, rfl⟩⟩

end Session

end TouchGestures
