import TouchGestures.Proofs.Router.Dispatch
import TouchGestures.Proofs.Router.Separate

namespace TouchGestures

namespace Router

-- What a consumer gets of an operation: the answer to a touch, the gestures that a verdict
-- lets out, and what a helper is told about the consumer.
inductive Reply
  | answer (result : TouchResult)
  | released (gestures : List Gesture)
  | told (helper : HelperId) (message : Message)
  deriving DecidableEq

def Reply.renumber (ρ : Renumbering) : Reply → Reply
  | .answer result => .answer result
  | .released gestures => .released (gestures.map (·.renumber ρ))
  | .told helper message => .told helper (message.renumber ρ)

def heard (r : Router) (c : ConsumerId) (notices : List Notice) : List Reply :=
  (r.deliveries (notices.filter fun notice => notice.consumer = c)).map fun (helper, notice) =>
    .told helper notice.message

def replies (r : Router) (c : ConsumerId) : Op → Except Violation (List Reply)
  | .touch t consumer =>
    (r.touch t consumer).map fun (result, _) => if consumer = c then [.answer result] else []
  | .ack id consumed nonBlocking consumer =>
    (r.ack id consumed nonBlocking consumer).map fun (gestures, _) =>
      if consumer = c then [.released gestures] else []
  | op => (r.perform op).map fun (notices, _) => r.heard c notices

variable {ρ : Renumbering} {r r' r₁ : Router} {c : ConsumerId} {op : Op}
  {notices notices' : List Notice} {log : List (EventId × ConsumerId)}

theorem heard_renumber (hhelpers : r'.helpers = r.helpers)
    (h : notices'.filter (fun notice => notice.consumer = c) =
      (notices.filter fun notice => notice.consumer = c).map (·.renumber ρ)) :
    r'.heard c notices' = (r.heard c notices).map (·.renumber ρ) := by
  unfold heard deliveries
  rw [h, helperFor?_eq hhelpers, List.filterMap_map, List.map_filterMap, List.map_map, List.map_filterMap]
  refine List.filterMap_congr fun notice _ => ?_
  cases hfound : r.helperFor? notice.consumer <;>
    simp [hfound, Notice.renumber, Reply.renumber]

-- The helper of a consumer hears nothing of notices for others.
theorem heard_eq_nil {d : ConsumerId} (hne : d ≠ c)
    (h : ∀ notice ∈ notices, notice.consumer = d) : r.heard c notices = [] := by
  have hnone : (notices.filter fun notice => notice.consumer = c) = [] :=
    List.filter_eq_nil_iff.mpr fun notice hmem => by simp [h notice hmem, hne]
  rw [heard, hnone]
  rfl

-- A consumer gets nothing of what does not concern it.
theorem replies_eq_nil (hop : op.concerns c = false) (hr : r.perform op = .ok (notices, r₁)) :
    r.replies c op = .ok [] := by
  cases op with
  | touch t consumer =>
    obtain ⟨⟨result, after⟩, htouch, -⟩ := map_eq_ok.mp hr
    simp [replies, htouch, of_decide_eq_false hop]
  | ack id consumed nonBlocking consumer =>
    obtain ⟨⟨gestures, after⟩, hack, -⟩ := map_eq_ok.mp hr
    simp [replies, hack, of_decide_eq_false hop]
  | cancel now consumer =>
    have hsilent : r.heard c notices = [] := by
      refine heard_eq_nil (of_decide_eq_false hop) ?_
      obtain ⟨⟨cancelled, result⟩, hcancel, heq⟩ := map_eq_ok.mp hr
      cases heq
      unfold Router.cancel at hcancel
      split at hcancel
      · exact consumer_of_mem_cancelChannel hcancel
      · cases hcancel
        simp
    simp [replies, hr, hsilent]
  | forget consumer => rfl
  | tick | configure | addHelper | removeHelper | setIds | cancelOn | cancelExcept | transfer =>
    cases hop

-- A router does an operation as another one does, and gives the consumer the same replies up
-- to the numbers of touches.
def Follows (ρ : Renumbering) (c : ConsumerId) (log : List (EventId × ConsumerId))
    (r r₁ : Router) (op : Op) (r' : Router) : Prop :=
  ∃ notices r₁' given, r'.perform op = .ok (notices, r₁') ∧
    r₁.Alike ρ c (log ++ op.touches) r₁' ∧ r.replies c op = .ok given ∧
    r'.replies c op = .ok (given.map (·.renumber ρ))

theorem handles_renumber (h : ∀ entry ∈ r.helpers, entry.2.Numberless) (t : Touch) :
    r.handles c (t.renumber ρ) = r.handles c t := by
  unfold handles
  cases hhelper : r.helperFor? c with
  | none => rfl
  | some entry => exact h entry (List.mem_of_find?_eq_some hhelper) c t (ρ t.id)

theorem Follows.touch {t : Touch} (h : r.Alike ρ c log r') (howned : r.Owned) (howned' : r'.Owned)
    (hid : ρ t.id = t.id) (hevents : t.id ∉ r.events ∧ t.id ∉ r'.events)
    (horphans : t.id ∉ r.orphans ∧ t.id ∉ r'.orphans)
    (hr : r.perform (.touch t c) = .ok (notices, r₁)) : Follows ρ c log r r₁ (.touch t c) r' := by
  obtain ⟨⟨result, after⟩, htouch, heq⟩ := map_eq_ok.mp hr
  cases heq
  obtain ⟨r₁', htouch', halike⟩ := h.touch howned howned' hid hevents horphans htouch
  exact ⟨[], r₁', [.answer result], by simp [perform, htouch'], halike, by simp [replies, htouch],
    by simp [replies, htouch', Reply.renumber]⟩

theorem Follows.ack {id : EventId} {consumed nonBlocking : Bool} (h : r.Alike ρ c log r')
    (howned : r.Owned) (howned' : r'.Owned) (hfiled : r.Filed c log) (hfiled' : r'.Filed c log)
    (hmem : (id, c) ∈ log) (hid : ρ id = id)
    (hr : r.perform (.ack id consumed nonBlocking c) = .ok (notices, r₁)) :
    Follows ρ c log r r₁ (.ack id consumed nonBlocking c) r' := by
  obtain ⟨⟨gestures, after⟩, hack, heq⟩ := map_eq_ok.mp hr
  cases heq
  obtain ⟨r₁', hack', halike⟩ := h.ack howned howned' hfiled hfiled' hmem hid hack
  refine ⟨_, r₁', [.released gestures], by rw [perform, hack', ok_map], ?_,
    by simp [replies, hack], by simp [replies, hack', Reply.renumber]⟩
  simpa only [Op.touches, List.append_nil] using halike

theorem Follows.cancel {now : Time} (h : r.Alike ρ c log r') (howned : r.Owned)
    (howned' : r'.Owned) (hhelpers : ∀ entry ∈ r.helpers, entry.2.Numberless)
    (hdrawn : (r.ids.drawn (r.liveCount c)).map ρ = r'.ids.drawn (r.liveCount c))
    (hr : r.perform (.cancel now c) = .ok (notices, r₁)) :
    Follows ρ c log r r₁ (.cancel now c) r' := by
  obtain ⟨⟨cancelled, result⟩, hcancel, heq⟩ := map_eq_ok.mp hr
  cases heq
  obtain ⟨r₁', hcancel', halike⟩ :=
    h.cancel howned howned' (handles_renumber hhelpers) hdrawn hcancel
  have hr' : r'.perform (.cancel now c) = .ok (notices.map (·.renumber ρ), r₁') := by
    rw [perform, hcancel', ok_map]
  have hheard : r'.heard c (notices.map (·.renumber ρ)) = (r.heard c notices).map (·.renumber ρ) :=
    heard_renumber h.helpers (List.filter_map ..)
  refine ⟨_, r₁', r.heard c notices, hr', ?_, by simp [replies, hr], by simp [replies, hr', hheard]⟩
  simpa only [Op.touches, List.append_nil] using halike

theorem Follows.tick {now : Time} (h : r.Alike ρ c log r') (howned : r.Owned) (howned' : r'.Owned)
    (hnamed : r.Named) (hnamed' : r'.Named)
    (hr : r.perform (.tick now) = .ok (notices, r₁)) : Follows ρ c log r r₁ (.tick now) r' := by
  obtain ⟨notices', r₁', htick', halike, hnotices⟩ := h.tick howned howned' hnamed hnamed' hr
  have hr' : r'.perform (.tick now) = .ok (notices', r₁') := htick'
  refine ⟨notices', r₁', r.heard c notices, hr', ?_, by simp [replies, hr],
    by simp [replies, hr', heard_renumber h.helpers hnotices]⟩
  simpa only [Op.touches, List.append_nil] using halike

end Router

namespace Session

open Router (Follows Op)

variable {ρ : Renumbering} {c : ConsumerId} {s s' s₁ s₁' : Session} {op : Op} {ops : List Op}
  {log log' : List (EventId × ConsumerId)} {pairs : List (EventId × EventId)}

def initial (settings : Settings) (ids : EventIds) : Session := { router := { settings, ids } }

def run (s : Session) : List Op → Except Violation Session
  | [] => .ok s
  | op :: rest => do
    let s ← s.perform op
    s.run rest

-- Two sessions are alike for a consumer if the numbers of the pairs are changed into each
-- other, and that is possible. The touches for the consumer have been the same in both.
structure Paired (c : ConsumerId) (log log' : List (EventId × ConsumerId))
    (pairs : List (EventId × EventId)) (s s' : Session) : Prop where
  first : Separate log s
  second : Separate log' s'
  own : ∀ id : EventId, (id, c) ∈ log' ↔ (id, c) ∈ log
  fixed : ∀ id : EventId, (id, c) ∈ log → (id, id) ∈ pairs
  matched : ∃ lead, Matched pairs lead s.router.ids s'.router.ids s.numbers s'.numbers
  alike : ∀ ρ : Renumbering, (∀ p ∈ pairs, ρ p.1 = p.2) → s.router.Alike ρ c log s'.router

-- The numbers that belong together when both sessions do an operation.
def pairsOf (s s' : Session) (op : Op) : List (EventId × EventId) :=
  (s.router.spent op).zip (s'.router.spent op)

theorem Paired.filed (h : Paired c log log' pairs s s') (hnodup : s'.numbers.Nodup) :
    s'.router.Filed c log where
  owner := fun hmem hevent => (h.second.filed hnodup c).owner ((h.own _).mpr hmem) hevent

theorem Paired.follows (h : Paired c log log' pairs s s') (hop : op.Separate log)
    (hconcerns : op.concerns c = true) (hs : s.perform op = .ok s₁) (hnodup : s₁.numbers.Nodup)
    (hρ : ∀ p ∈ pairs ++ s.pairsOf s' op, ρ p.1 = p.2) :
    Follows ρ c log s.router s₁.router op s'.router := by
  obtain ⟨lead, hmatched⟩ := h.matched
  obtain ⟨notices, hr⟩ := perform_router hs
  have hnodup₀ := (prefix_numbers_play hs).sublist.nodup hnodup
  have hpairs : ∀ p ∈ pairs, ρ p.1 = p.2 := fun p hp => hρ p (List.mem_append_left _ hp)
  have hnew : ∀ p ∈ s.pairsOf s' op, ρ p.1 = p.2 := fun p hp => hρ p (List.mem_append_right _ hp)
  have halike := h.alike ρ hpairs
  have howned := h.first.reached.owned
  have howned' := h.second.reached.owned
  have hfiled := h.first.filed hnodup₀ c
  have hfiled' := h.filed hmatched.nodup
  have hfresh := h.first.fresh hop hs hnodup
  generalize s₁.router = r₁ at hr ⊢
  cases op with
  | touch t consumer =>
    obtain rfl := of_decide_eq_true hconcerns
    obtain ⟨hid, -⟩ := hfresh (t.id, consumer) List.mem_cons_self
    obtain ⟨hevents, horphans⟩ := (h.first.reached.consistent hnodup₀).of_not_mem_numbers hid
    obtain ⟨hevents', horphans'⟩ := (h.second.reached.consistent hmatched.nodup).of_not_mem_numbers
      fun hmem => hid (hmatched.subset hmem)
    exact .touch halike howned howned' (hnew (t.id, t.id) List.mem_cons_self)
      ⟨hevents, hevents'⟩ ⟨horphans, horphans'⟩ hr
  | ack id consumed nonBlocking consumer =>
    obtain rfl := of_decide_eq_true hconcerns
    exact .ack halike howned howned' hfiled hfiled' hop (hpairs (id, id) (h.fixed id hop)) hr
  | cancel now consumer =>
    obtain rfl := of_decide_eq_true hconcerns
    refine .cancel halike howned howned' h.first.numberless (Matched.map_drawn fun p hp => ?_) hr
    refine hnew p ?_
    rwa [pairsOf, Router.spent, Router.spent, halike.liveCount]
  | tick now =>
    exact .tick halike howned howned' h.first.reached.named h.second.reached.named hr
  | forget consumer =>
    obtain rfl := of_decide_eq_true hconcerns
    cases hr
    exact ⟨[], _, [], rfl, (List.append_nil log).symm ▸ halike.forget hfiled hfiled', rfl, rfl⟩
  | configure settings =>
    cases hr
    exact ⟨[], _, [], rfl, (List.append_nil log).symm ▸ halike.configure settings, rfl, rfl⟩
  | addHelper helper =>
    cases hr
    exact ⟨[], _, [], rfl, (List.append_nil log).symm ▸ halike.addHelper helper, rfl, rfl⟩
  | removeHelper id =>
    cases hr
    exact ⟨[], _, [], rfl, (List.append_nil log).symm ▸ halike.removeHelper id, rfl, rfl⟩
  | setIds ids =>
    cases hr
    exact ⟨[], _, [], rfl, (List.append_nil log).symm ▸ halike.setIds ids, rfl, rfl⟩
  | cancelOn | cancelExcept | transfer => exact absurd hop id

-- Both sessions do an operation that concerns the consumer.
theorem Paired.perform (h : Paired c log log' pairs s s') (hop : op.Separate log)
    (hconcerns : op.concerns c = true) (hs : s.perform op = .ok s₁) (hnodup : s₁.numbers.Nodup) :
    ∃ s₁', s'.perform op = .ok s₁' ∧
      Paired c (log ++ op.touches) (log' ++ op.touches) (pairs ++ s.pairsOf s' op) s₁ s₁' := by
  obtain ⟨lead, hmatched⟩ := h.matched
  -- The numbers of the next step can be paired because both sessions draw equally many. What
  -- the second one comes to does not depend on how the other numbers are changed.
  obtain ⟨ρ, hρ⟩ := hmatched.exists_renumbering ((prefix_numbers_play hs).sublist.nodup hnodup)
  have hlive := (h.alike ρ hρ).liveCount
  have howned := h.first.reached.owned
  have howned' := h.second.reached.owned
  obtain ⟨notices, hr⟩ := perform_router hs
  have hnumbers := numbers_perform howned hop hs
  obtain ⟨lead₁, hmatched₁⟩ := Router.matched_both hmatched hlive hconcerns (hnumbers ▸ hnodup)
  obtain ⟨ρ₁, hρ₁⟩ := hmatched₁.exists_renumbering (hnumbers ▸ hnodup)
  obtain ⟨notices', r₁', given, hr', -⟩ := h.follows hop hconcerns hs hnodup hρ₁
  obtain ⟨s₁', handouts, hs', rfl, -⟩ := perform_iff.mp hr'
  have hop' : op.Separate log' := by
    cases op with
    | ack id consumed nonBlocking consumer =>
      obtain rfl := of_decide_eq_true hconcerns
      exact (h.own id).mpr hop
    | _ => exact hop
  refine ⟨s₁', hs', h.first.step hop hs, h.second.step hop' hs', fun id => ?_, fun id hid => ?_,
    ⟨lead₁, ?_⟩, fun ρ hρ => ?_⟩
  · rw [List.mem_append, List.mem_append, h.own]
  · rcases List.mem_append.mp hid with hid | hid
    · exact List.mem_append_left _ (h.fixed id hid)
    · cases op with
      | touch t consumer =>
        cases List.mem_singleton.mp hid
        exact List.mem_append_right _ List.mem_cons_self
      | _ => cases hid
  · rw [hnumbers, numbers_perform howned' hop' hs', (Router.perform_frame howned hop hr).1,
      (Router.perform_frame howned' hop' hr').1]
    exact hmatched₁
  · obtain ⟨_, after, _, hafter, halike, -⟩ := h.follows hop hconcerns hs hnodup hρ
    cases hafter.symm.trans hr'
    exact halike

-- The second one leaves an operation out that does not concern the consumer.
theorem Paired.idle (h : Paired c log log' pairs s s') (hop : op.Separate log)
    (hconcerns : op.concerns c = false) (hs : s.perform op = .ok s₁) (hnodup : s₁.numbers.Nodup) :
    Paired c (log ++ op.touches) log' pairs s₁ s' := by
  obtain ⟨lead, hmatched⟩ := h.matched
  obtain ⟨notices, hr⟩ := perform_router hs
  have hnodup₀ := (prefix_numbers_play hs).sublist.nodup hnodup
  have howned := h.first.reached.owned
  have hnumbers := numbers_perform howned hop hs
  have hforeign : ∀ {id : EventId}, (id, c) ∈ log ++ op.touches → (id, c) ∈ log := by
    intro id hid
    rcases List.mem_append.mp hid with hid | hid
    · exact hid
    · cases op with
      | touch t consumer =>
        cases List.mem_singleton.mp hid
        exact absurd rfl (of_decide_eq_false hconcerns)
      | _ => cases hid
  refine ⟨h.first.step hop hs, h.second, fun id => ?_, fun id hid => h.fixed id (hforeign hid), ?_,
    fun ρ hρ => ?_⟩
  · rw [h.own]
    exact ⟨List.mem_append_left _, hforeign⟩
  · rw [hnumbers, (Router.perform_frame howned hop hr).1]
    exact Router.matched_first hmatched hconcerns (hnumbers ▸ hnodup)
  · have hspares := Router.spares_perform h.first.reached.mirrors howned (h.first.filed hnodup₀)
      (h.first.sublist.nodup hnodup₀) hop hconcerns
      (fun entry hentry => (h.first.fresh hop hs hnodup entry hentry).2 c) hr
    exact ((h.alike ρ hρ).spares hspares).of_log hforeign

-- What a consumer gets of an operation in one session it gets in the other, up to the numbers
-- of touches. Of an operation that does not concern it, it gets nothing.
def Answers (ρ : Renumbering) (c : ConsumerId) (s s' : Session) (op : Op) : Prop :=
  if op.concerns c then
    ∃ given, s.router.replies c op = .ok given ∧
      s'.router.replies c op = .ok (given.map (·.renumber ρ))
  else s.router.replies c op = .ok []

-- The session that does an operation, and the one that leaves it out if it does not concern
-- the consumer.
theorem Paired.step (h : Paired c log log' pairs s s') (hop : op.Separate log)
    (hs : s.perform op = .ok s₁) (hnodup : s₁.numbers.Nodup) :
    ∃ s₁' log₁' more, s'.run ([op].filter (·.concerns c)) = .ok s₁' ∧
      Paired c (log ++ op.touches) log₁' (pairs ++ more) s₁ s₁' ∧
      ∀ ρ : Renumbering, (∀ p ∈ pairs ++ more, ρ p.1 = p.2) → Answers ρ c s s' op := by
  cases hconcerns : op.concerns c with
  | true =>
    obtain ⟨s₁', hs', hpaired⟩ := h.perform hop hconcerns hs hnodup
    refine ⟨s₁', _, _, ?_, hpaired, fun ρ hρ => ?_⟩
    · simp [hconcerns, run, hs']
    · obtain ⟨_, _, given, -, -, hgiven, hgiven'⟩ := h.follows hop hconcerns hs hnodup hρ
      simp [Answers, hconcerns, hgiven, hgiven']
  | false =>
    obtain ⟨notices, hr⟩ := perform_router hs
    have hpaired := h.idle hop hconcerns hs hnodup
    refine ⟨s', _, [], by simp [hconcerns, run],
      (List.append_nil pairs).symm ▸ hpaired, fun ρ _ => ?_⟩
    simp [Answers, hconcerns, Router.replies_eq_nil hconcerns hr]

theorem prefix_numbers_run (hrun : s.run ops = .ok s') : s.numbers <+: s'.numbers := by
  induction ops generalizing s with
  | nil =>
    cases hrun
    exact List.prefix_refl _
  | cons op rest ih =>
    obtain ⟨s₁, hs, hrest⟩ := bind_eq_ok.mp hrun
    exact (prefix_numbers_play hs).trans (ih hrest)

theorem run_append (first second : List Op) :
    s.run (first ++ second) = s.run first >>= fun s => s.run second := by
  induction first generalizing s with
  | nil => rfl
  | cons op rest ih =>
    rw [List.cons_append, run, run]
    cases s.perform op with
    | error violation => rfl
    | ok s₁ => exact ih

-- The two sessions at every point of a run. The numbers are paired one operation after the
-- other, and what changes the pairs of the whole run changes those of all its beginnings.
theorem Paired.run (h : Paired c log log' pairs s s') (hops : Op.AllSeparate log ops)
    (hrun : s.run ops = .ok s₁) (hnodup : s₁.numbers.Nodup) :
    ∃ ρ : Renumbering, (∀ p ∈ pairs, ρ p.1 = p.2) ∧
      (∀ t, .touch t c ∈ ops → ρ t.id = t.id) ∧
      ∀ earlier later, ops = earlier ++ later → ∃ s₂ s₂', s.run earlier = .ok s₂ ∧
        s'.run (earlier.filter (·.concerns c)) = .ok s₂' ∧
        s₂'.router.channel? c = (s₂.router.channel? c).map (·.renumber ρ) ∧
        ∀ op ∈ later.head?, Answers ρ c s₂ s₂' op := by
  induction ops generalizing log log' pairs s s' with
  | nil =>
    cases hrun
    obtain ⟨lead, hmatched⟩ := h.matched
    obtain ⟨ρ, hρ⟩ := hmatched.exists_renumbering hnodup
    refine ⟨ρ, hρ, by simp, fun earlier later hsplit => ?_⟩
    obtain ⟨rfl, rfl⟩ := List.append_eq_nil_iff.mp hsplit.symm
    exact ⟨s₁, s', rfl, rfl, (h.alike ρ hρ).channel, by simp⟩
  | cons op rest ih =>
    obtain ⟨hop, hrest⟩ := hops
    obtain ⟨s₂, hs, hrun⟩ := bind_eq_ok.mp hrun
    have hnodup₂ := (prefix_numbers_run hrun).sublist.nodup hnodup
    obtain ⟨s₂', log₂', more, hs', hpaired, hanswers⟩ := h.step hop hs hnodup₂
    obtain ⟨ρ, hρ, htouches, hall⟩ := ih hpaired hrest hrun
    have hearlier : ∀ p ∈ pairs, ρ p.1 = p.2 := fun p hp => hρ p (List.mem_append_left _ hp)
    refine ⟨ρ, hearlier, fun t ht => ?_, fun earlier later hsplit => ?_⟩
    · rcases List.mem_cons.mp ht with rfl | ht
      · exact hρ (t.id, t.id) (hpaired.fixed t.id (List.mem_append_right _ List.mem_cons_self))
      · exact htouches t ht
    · cases earlier with
      | nil =>
        rw [List.nil_append] at hsplit
        subst hsplit
        refine ⟨s, s', rfl, rfl, (h.alike ρ hearlier).channel, fun next hnext => ?_⟩
        cases Option.mem_some.mp hnext
        exact hanswers ρ hρ
      | cons first earlier =>
        obtain ⟨rfl, htail⟩ := List.cons.inj hsplit
        obtain ⟨s₃, s₃', hs₃, hs₃', hpoint⟩ := hall earlier later htail
        refine ⟨s₃, s₃', ?_, ?_, hpoint⟩
        · rw [Session.run, hs, ok_bind, hs₃]
        · rw [← List.singleton_append, List.filter_append, run_append, hs', ok_bind, hs₃']

-- A run in which a consumer notices nothing of the others. Whatever concerns only them can be
-- left out: the consumer gets the same replies, and its channel is the same after every
-- operation, up to the numbers of the touches that were made up on its behalf.
def Isolated (s : Session) (ops : List Op) (c : ConsumerId) : Prop :=
  ∃ ρ : Renumbering, (∀ t, .touch t c ∈ ops → ρ t.id = t.id) ∧
    ∀ earlier later, ops = earlier ++ later → ∃ s₁ s₁',
      s.run earlier = .ok s₁ ∧ s.run (earlier.filter (·.concerns c)) = .ok s₁' ∧
      s₁'.router.channel? c = (s₁.router.channel? c).map (·.renumber ρ) ∧
      (s₁'.router.channel? c).map (·.nextDeadline) =
        (s₁.router.channel? c).map (·.nextDeadline) ∧
      ∀ op ∈ later.head?, Answers ρ c s₁ s₁' op

-- Consumers do not notice each other, whether or not they use the same contacts.
theorem run_isolated {settings : Settings} {ids : EventIds} (hops : Op.AllSeparate [] ops)
    (hrun : (initial settings ids).run ops = .ok s) (hnodup : s.numbers.Nodup) (c : ConsumerId) :
    (initial settings ids).Isolated ops c := by
  have hstart : Paired c [] [] [] (initial settings ids) (initial settings ids) := by
    refine ⟨.start settings ids, .start settings ids, by simp, by simp, ⟨0, Matched.start ids⟩,
      fun ρ _ => ⟨rfl, rfl, rfl, ?_, by simp, by simp⟩⟩
    simp [Router.channel?, initial]
  obtain ⟨ρ, -, htouches, hall⟩ := hstart.run hops hrun hnodup
  refine ⟨ρ, htouches, fun earlier later hsplit => ?_⟩
  obtain ⟨s₁, s₁', hs₁, hs₁', hchannel, hanswers⟩ := hall earlier later hsplit
  refine ⟨s₁, s₁', hs₁, hs₁', hchannel, ?_, hanswers⟩
  rw [hchannel, Option.map_map]
  exact Option.map_congr fun channel _ => channel.nextDeadline_renumber

-- Two consumers use the same contact, and the touches of both are cancelled, those of the
-- second first.
def shared : List Op :=
  [.addHelper ⟨fun _ => true, fun _ _ => false⟩,
    .touch (Channel.finger .pressed 1 10 0 1) 1, .touch (Channel.finger .pressed 1 90 5 2) 2,
    .ack 2 false false 2, .ack 1 false false 1, .configure {}, .tick (Duration.milliseconds 100),
    .cancel (Duration.milliseconds 110) 2, .cancel (Duration.milliseconds 120) 1, .forget 2]

-- Without the second consumer the cancelled touch of the first has another number.
theorem shared_isolated :
    ∃ s s', Op.AllSeparate [] shared ∧ (initial {} ⟨5⟩).run shared = .ok s ∧
      s.numbers.Nodup ∧ s.numbers = [1, 2, 5, 6] ∧
      (initial {} ⟨5⟩).run (shared.filter (·.concerns 1)) = .ok s' ∧ s'.numbers = [1, 5] ∧
      (initial {} ⟨5⟩).Isolated shared 1 := by
  have hops : Op.AllSeparate [] shared := by
    simp [shared, Op.AllSeparate, Op.Separate, Op.touches, Helper.Numberless, Channel.finger]
  have hnumbers : ((initial {} ⟨5⟩).run shared).map (·.numbers) = .ok [1, 2, 5, 6] := by
    decide +kernel
  have hnumbers' : ((initial {} ⟨5⟩).run (shared.filter (·.concerns 1))).map (·.numbers) =
      .ok [1, 5] := by
    decide +kernel
  obtain ⟨s, hs, heq⟩ := map_eq_ok.mp hnumbers
  obtain ⟨s', hs', heq'⟩ := map_eq_ok.mp hnumbers'
  have hnodup : s.numbers.Nodup := by
    rw [heq]
    decide
  exact ⟨s, s', hops, hs, hnodup, heq, hs', heq', run_isolated hops hs hnodup 1⟩

end Session

end TouchGestures
