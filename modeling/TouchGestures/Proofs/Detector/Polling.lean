import TouchGestures.Detector.Touch

namespace TouchGestures.Detector

variable {now earlier later : Time}

def Alarm.kind : Alarm → Gesture.Kind
  | .showPress => .showPress
  | .longPress => .longPress

namespace Alarms

variable {a rest : Alarms} {alarm : Alarm} {deadline : Time}

def deadline? (a : Alarms) : Alarm → Option Time
  | .showPress => a.showPress
  | .longPress => a.longPress

def count (a : Alarms) : Nat := a.showPress.toList.length + a.longPress.toList.length

theorem count_le_two (a : Alarms) : a.count ≤ 2 := by
  obtain ⟨s, l⟩ := a
  cases s <;> cases l <;> simp [count]

theorem deadline?_off (alarm : Alarm) : off.deadline? alarm = none := by
  cases alarm <;> rfl

-- The alarm that is taken out is the earliest one, and its deadline has come. The moment
-- counts for nothing else.
theorem takeDue?_eq_some_iff :
    a.takeDue? now = some (alarm, deadline, rest) ↔
      deadline ≤ now ∧
        (alarm = .showPress ∧ a.showPress = some deadline ∧ rest = { a with showPress := none } ∧
            (∀ time, a.longPress = some time → deadline ≤ time) ∨
          alarm = .longPress ∧ a.longPress = some deadline ∧ rest = { a with longPress := none } ∧
            ∀ time, a.showPress = some time → deadline < time) := by
  obtain ⟨_ | s, _ | l⟩ := a
  · simp [takeDue?]
  · by_cases hl : l ≤ now <;> simp [takeDue?, Option.filter_some, hl] <;> grind
  · by_cases hs : s ≤ now <;> simp [takeDue?, Option.filter_some, hs] <;> grind
  · by_cases hs : s ≤ now <;> by_cases hl : l ≤ now <;>
      simp [takeDue?, Option.filter_some, hs, hl] <;> grind

theorem lt_of_takeDue?_eq_none (h : a.takeDue? now = none)
    (hset : a.deadline? alarm = some deadline) : now < deadline := by
  unfold takeDue? at h
  split at h
  · split at h <;> cases h
  · cases h
  · cases h
  · next hshow hlong =>
    have hlate : ¬decide (deadline ≤ now) = true := by
      cases alarm with
      | showPress => exact Option.filter_eq_none_iff.mp hshow deadline hset
      | longPress => exact Option.filter_eq_none_iff.mp hlong deadline hset
    exact Int.not_le.mp (by simpa using hlate)

-- An alarm that is taken out was set for its deadline, and no other is set for earlier.
theorem deadline?_of_takeDue? (h : a.takeDue? now = some (alarm, deadline, rest)) :
    a.deadline? alarm = some deadline ∧ rest.count + 1 = a.count ∧
      ∀ other time, rest.deadline? other = some time →
        a.deadline? other = some time ∧ deadline ≤ time := by
  obtain ⟨-, ⟨rfl, hset, rfl, hfirst⟩ | ⟨rfl, hset, rfl, hfirst⟩⟩ := takeDue?_eq_some_iff.mp h
  · refine ⟨hset, by simp [count, hset, Nat.add_comm], fun other time hother => ?_⟩
    cases other with
    | showPress => cases hother
    | longPress => exact ⟨hother, hfirst time hother⟩
  · refine ⟨hset, by simp [count, hset], fun other time hother => ?_⟩
    cases other with
    | showPress => exact ⟨hother, Int.le_of_lt (hfirst time hother)⟩
    | longPress => cases hother

-- What is due stays due, and is still the first to be taken out.
theorem takeDue?_of_le (hle : earlier ≤ later)
    (h : a.takeDue? earlier = some (alarm, deadline, rest)) :
    a.takeDue? later = some (alarm, deadline, rest) := by
  obtain ⟨hdue, hfirst⟩ := takeDue?_eq_some_iff.mp h
  exact takeDue?_eq_some_iff.mpr ⟨Int.le_trans hdue hle, hfirst⟩

-- What rings until some moment: the gestures come in the order of the deadlines, each at
-- the deadline of its alarm, and no alarm is left that is due.
structure RingBy (a : Alarms) (now : Time) (fired : List Gesture) (after : Alarms) : Prop where
  ordered : fired.Pairwise fun g h => g.time ≤ h.time
  due : ∀ g ∈ fired, g.time ≤ now ∧ ∃ alarm : Alarm, g.kind = alarm.kind ∧
    a.deadline? alarm = some g.time
  silent : ∀ alarm deadline, after.deadline? alarm = some deadline → now < deadline

end Alarms

namespace Stream

variable {s : Stream} {rest : Alarms} {alarm other : Alarm} {deadline time : Time}
  {rounds : Nat}

theorem of_mem_ring {g : Gesture} (hg : g ∈ (s.ring alarm deadline).1) :
    g.kind = alarm.kind ∧ g.time = deadline := by
  unfold ring at hg
  simp only [] at hg
  split at hg <;> simp at hg
  · subst hg
    exact ⟨rfl, rfl⟩
  · subst hg
    exact ⟨rfl, rfl⟩

-- No alarm is set by one that rings.
theorem alarms_ring (s : Stream) (alarm : Alarm) (deadline : Time) :
    (s.ring alarm deadline).2.alarms = s.alarms ∨
      (s.ring alarm deadline).2.alarms = Alarms.off := by
  unfold ring
  simp only []
  split
  · exact .inl rfl
  · exact .inr rfl
  · exact .inl rfl

theorem count_alarms_ring (s : Stream) (alarm : Alarm) (deadline : Time) :
    (s.ring alarm deadline).2.alarms.count ≤ s.alarms.count := by
  obtain hsame | hoff := s.alarms_ring alarm deadline
  · exact Nat.le_of_eq (congrArg Alarms.count hsame)
  · rw [hoff]
    exact Nat.zero_le _

theorem deadline?_of_ring
    (h : (s.ring alarm deadline).2.alarms.deadline? other = some time) :
    s.alarms.deadline? other = some time := by
  obtain hsame | hoff := s.alarms_ring alarm deadline
  · rwa [hsame] at h
  · rw [hoff, Alarms.deadline?_off] at h
    cases h

def rung (s : Stream) (alarm : Alarm) (deadline : Time) (rest : Alarms) : Stream :=
  ({ s with alarms := rest }.ring alarm deadline).2

theorem ringDue_of_takeDue? (h : s.alarms.takeDue? now = some (alarm, deadline, rest))
    (rounds : Nat) :
    s.ringDue now (rounds + 1) =
      (({ s with alarms := rest }.ring alarm deadline).1 ++
          ((s.rung alarm deadline rest).ringDue now rounds).1,
        ((s.rung alarm deadline rest).ringDue now rounds).2) := by
  simp only [ringDue, h, rung]

theorem ringDue_of_takeDue?_eq_none (h : s.alarms.takeDue? now = none) (rounds : Nat) :
    s.ringDue now rounds = ([], s) := by
  cases rounds <;> simp [ringDue, h]

theorem count_alarms_rung (h : s.alarms.takeDue? now = some (alarm, deadline, rest)) :
    (s.rung alarm deadline rest).alarms.count + 1 ≤ s.alarms.count := by
  obtain ⟨-, hcount, -⟩ := Alarms.deadline?_of_takeDue? h
  have hring := count_alarms_ring { s with alarms := rest } alarm deadline
  rw [← hcount]
  exact Nat.succ_le_succ hring

theorem takeDue?_of_count_eq_zero (h : s.alarms.count = 0) : s.alarms.takeDue? now = none := by
  cases htaken : s.alarms.takeDue? now with
  | none => rfl
  | some first =>
    have hcount := count_alarms_rung htaken
    omega

-- More rounds than alarms make no difference.
theorem ringDue_of_count_le (h : s.alarms.count ≤ rounds) (more : Nat) :
    s.ringDue now (rounds + more) = s.ringDue now rounds := by
  induction rounds generalizing s with
  | zero =>
    have hnone : s.alarms.takeDue? now = none := takeDue?_of_count_eq_zero (Nat.le_zero.mp h)
    rw [ringDue_of_takeDue?_eq_none hnone, ringDue_of_takeDue?_eq_none hnone]
  | succ rounds ih =>
    cases htaken : s.alarms.takeDue? now with
    | none => rw [ringDue_of_takeDue?_eq_none htaken, ringDue_of_takeDue?_eq_none htaken]
    | some first =>
      have hcount := count_alarms_rung htaken
      rw [Nat.add_right_comm, ringDue_of_takeDue? htaken, ringDue_of_takeDue? htaken,
        ih (by omega)]

-- What was due earlier has rung first in either case.
theorem ringDue_ringDue (hle : earlier ≤ later) (h : s.alarms.count ≤ rounds) (before : Nat) :
    ((s.ringDue earlier before).1 ++ ((s.ringDue earlier before).2.ringDue later rounds).1,
        ((s.ringDue earlier before).2.ringDue later rounds).2) =
      s.ringDue later rounds := by
  induction before generalizing s rounds with
  | zero => rfl
  | succ before ih =>
    cases htaken : s.alarms.takeDue? earlier with
    | none =>
      rw [ringDue_of_takeDue?_eq_none htaken]
      rfl
    | some first =>
      obtain ⟨alarm, deadline, rest⟩ := first
      have hcount := count_alarms_rung htaken
      obtain ⟨rounds, rfl⟩ : ∃ fewer, rounds = fewer + 1 := ⟨rounds - 1, by omega⟩
      have hothers : (s.rung alarm deadline rest).alarms.count ≤ rounds := by omega
      have hboth := ih (Nat.le_add_right_of_le hothers : _ ≤ rounds + 1)
      rw [ringDue_of_count_le hothers 1] at hboth
      rw [ringDue_of_takeDue? htaken, ringDue_of_takeDue? (Alarms.takeDue?_of_le hle htaken),
        ← hboth]
      simp only [List.append_assoc]

theorem ringBy_ringDue_of_takeDue?_eq_none (h : s.alarms.takeDue? now = none) (rounds : Nat) :
    s.alarms.RingBy now (s.ringDue now rounds).1 (s.ringDue now rounds).2.alarms := by
  rw [ringDue_of_takeDue?_eq_none h]
  exact ⟨List.Pairwise.nil, by simp, fun _ _ => Alarms.lt_of_takeDue?_eq_none h⟩

theorem ringBy_ringDue (h : s.alarms.count ≤ rounds) :
    s.alarms.RingBy now (s.ringDue now rounds).1 (s.ringDue now rounds).2.alarms := by
  induction rounds generalizing s with
  | zero =>
    exact ringBy_ringDue_of_takeDue?_eq_none (takeDue?_of_count_eq_zero (Nat.le_zero.mp h)) 0
  | succ rounds ih =>
    cases htaken : s.alarms.takeDue? now with
    | none => exact ringBy_ringDue_of_takeDue?_eq_none htaken _
    | some first =>
      obtain ⟨alarm, deadline, rest⟩ := first
      have hcount := count_alarms_rung htaken
      have hothers := ih (s := s.rung alarm deadline rest) (by omega)
      obtain ⟨hset, -, hrest⟩ := Alarms.deadline?_of_takeDue? htaken
      rw [ringDue_of_takeDue? htaken]
      have hlater : ∀ g ∈ ((s.rung alarm deadline rest).ringDue now rounds).1,
          deadline ≤ g.time ∧ ∃ other : Alarm, g.kind = other.kind ∧
            s.alarms.deadline? other = some g.time := by
        intro g hg
        obtain ⟨-, other, hkind, hother⟩ := hothers.due g hg
        obtain ⟨hother, hle⟩ := hrest other g.time (deadline?_of_ring hother)
        exact ⟨hle, other, hkind, hother⟩
      have hdue : deadline ≤ now := Alarms.le_of_takeDue? htaken
      refine ⟨?_, ?_, hothers.silent⟩
      · refine List.pairwise_append.mpr ⟨?_, hothers.ordered, fun g hg g' hg' => ?_⟩
        · refine List.pairwise_of_forall_mem_list fun g hg g' hg' => ?_
          exact Int.le_of_eq ((of_mem_ring hg).2.trans (of_mem_ring hg').2.symm)
        · rw [(of_mem_ring hg).2]
          exact (hlater g' hg').1
      · intro g hg
        rcases List.mem_append.mp hg with hg | hg
        · obtain ⟨hkind, htime⟩ := of_mem_ring hg
          exact ⟨htime ▸ hdue, alarm, hkind, htime ▸ hset⟩
        · exact ⟨(hothers.due g hg).1, (hlater g hg).2⟩

theorem tick_tick (hle : earlier ≤ later) (s : Stream) :
    ((s.tick earlier).1 ++ ((s.tick earlier).2.tick later).1, ((s.tick earlier).2.tick later).2) =
      s.tick later :=
  ringDue_ringDue hle s.alarms.count_le_two 2

theorem ringBy_tick (s : Stream) (now : Time) :
    s.alarms.RingBy now (s.tick now).1 (s.tick now).2.alarms :=
  ringBy_ringDue s.alarms.count_le_two

end Stream

variable {d : Detector}

def alarms (d : Detector) : Alarms := (d.stream.map (·.alarms)).getD Alarms.off

theorem tick_of_stream_eq_some {s : Stream} (hs : d.stream = some s) (now : Time) :
    d.tick now = ((s.tick now).1, { d with stream := some (s.tick now).2 }) := by
  simp only [tick, hs]

theorem tick_of_stream_eq_none (hs : d.stream = none) (now : Time) : d.tick now = ([], d) := by
  simp only [tick, hs]

theorem tick_tick (hle : earlier ≤ later) (d : Detector) :
    ((d.tick earlier).1 ++ ((d.tick earlier).2.tick later).1, ((d.tick earlier).2.tick later).2) =
      d.tick later := by
  cases hs : d.stream with
  | none => simp only [tick_of_stream_eq_none hs, List.append_nil]
  | some s =>
    rw [tick_of_stream_eq_some hs, tick_of_stream_eq_some hs, ← s.tick_tick hle]
    rfl

theorem settings_tick (d : Detector) (now : Time) : (d.tick now).2.settings = d.settings := by
  unfold tick
  split <;> rfl

theorem ringBy_tick (d : Detector) (now : Time) :
    d.alarms.RingBy now (d.tick now).1 (d.tick now).2.alarms := by
  cases hs : d.stream with
  | none =>
    rw [tick_of_stream_eq_none hs, alarms, hs]
    exact ⟨List.Pairwise.nil, by simp, fun alarm _ hset => by
      simp [Alarms.deadline?_off] at hset⟩
  | some s =>
    rw [tick_of_stream_eq_some hs, alarms, hs]
    exact s.ringBy_tick now

end TouchGestures.Detector
