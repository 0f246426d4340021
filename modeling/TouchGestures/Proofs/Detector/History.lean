import Mathlib.Data.List.Induction
import TouchGestures.Proofs.Detector.Polling
import TouchGestures.Proofs.Detector.Taps
import TouchGestures.Proofs.Splits

namespace TouchGestures.Detector

open Gesture (lacks_nil)

inductive Op
  | touch (t : ContactTable)
  | tick (now : Time)
  | reset
  | configure (settings : ChannelSettings)
  | setDoubleTap (enabled : Bool)
  deriving DecidableEq

-- Does what it is asked to. A touch that is turned down changes nothing.
def perform (d : Detector) : Op → List Gesture × Detector
  | .touch t => (d.touch t).getD ([], d)
  | .tick now => d.tick now
  | .reset => ([], d.reset)
  | .configure settings => ([], d.configure settings)
  | .setDoubleTap enabled => ([], d.setDoubleTap enabled)

-- What double taps are switched to, if that is asked.
def Op.switch? : Op → Option Bool
  | .configure settings => some settings.doubleTap
  | .setDoubleTap enabled => some enabled
  | .touch _ | .tick _ | .reset => none

-- A step of a detector: what it was asked, as it stood before.
structure Moment where
  before : Detector
  op : Op
  deriving DecidableEq

namespace Moment

def gestures (m : Moment) : List Gesture := (m.before.perform m.op).1

def after (m : Moment) : Detector := (m.before.perform m.op).2

-- The taps that are completed, as the presses after them are compared with them.
def taps (m : Moment) : List LastTap := m.gestures.filterMap Gesture.tap?

def doubleTaps (m : Moment) : List Gesture := m.gestures.filter fun g => g.kind = .doubleTap

-- When and where a stream begins, if one does.
def press? (m : Moment) : Option (Time × Point) :=
  match m.op with
  | .touch t => do
    let change ← t.latest
    let contact ← t.acting?
    if change.action = .began then some (change.time, contact.location) else none
  | _ => none

-- Whether the last tap is forgotten without another one: a stream under way is cancelled,
-- the detector is reset, or double taps are switched off.
def forgets (m : Moment) : Bool :=
  match m.op with
  | .touch t => t.latest.any (·.action = .cancelled) && m.before.stream.isSome
  | .reset => true
  | .setDoubleTap enabled => !enabled
  | .tick _ | .configure _ => false

end Moment

-- A touch that is turned down is no cancel, and otherwise it is handled as what it amounts to.
theorem perform_touch_cases (d : Detector) (t : ContactTable) :
    (d.perform (.touch t) = ([], d) ∧ ∀ change ∈ t.latest,
      change.action ≠ .began ∧ change.action ≠ .cancelled) ∨
    ∃ change, t.latest = some change ∧
      d.perform (.touch t) = { d with lastTime := some change.time }.handle t change := by
  cases hlatest : t.latest with
  | none => exact .inl ⟨by simp [perform, touch, hlatest], by simp⟩
  | some change =>
    by_cases hrefuses : d.refuses change = true
    · refine .inl ⟨by simp [perform, touch, hlatest, hrefuses], fun other hother => ?_⟩
      cases hother
      unfold refuses at hrefuses
      constructor <;> intro haction <;> rw [haction] at hrefuses <;> cases hrefuses
    · exact .inr ⟨change, rfl, by simp [perform, touch, hlatest, hrefuses]⟩

namespace Moment

theorem fate (m : Moment) :
    Fate m.before.stream m.before.lastTap m.forgets m.gestures m.after := by
  obtain ⟨d, op⟩ := m
  unfold gestures after
  cases op with
  | touch t =>
    dsimp only
    obtain ⟨hsame, hstays⟩ | ⟨change, hlatest, hhandle⟩ := d.perform_touch_cases t
    · rw [hsame]
      refine .plain lacks_nil ?_ rfl
      cases hlatest : t.latest with
      | none => simp [forgets, hlatest]
      | some change => simp [forgets, hlatest, (hstays change hlatest).2]
    · have hforgets : forgets ⟨d, .touch t⟩ =
          (decide (change.action = .cancelled) && d.stream.isSome) := by simp [forgets, hlatest]
      rw [hhandle, hforgets]
      exact fate_handle { d with lastTime := some change.time } t change
  | tick now => exact .plain (tapless_tick d now) rfl (lastTap_tick d now)
  | reset => exact .forgot lacks_nil rfl rfl
  | configure settings => exact .plain lacks_nil rfl rfl
  | setDoubleTap enabled =>
    cases enabled with
    | true => exact .plain lacks_nil rfl rfl
    | false => exact .forgot lacks_nil rfl rfl

-- The stream under way began with this step, or was under way before.
theorem stream_cases {m : Moment} {s' : Stream} (hs' : m.after.stream = some s') :
    (∃ time location, m.press? = some (time, location) ∧
      s'.doubleTap = m.before.followsTap time location) ∨
    m.press? = none ∧ ∃ s, m.before.stream = some s ∧
      s'.doubleTap = (s.doubleTap && m.op.switch?.getD true) := by
  obtain ⟨d, op⟩ := m
  unfold after at hs'
  cases op with
  | touch t =>
    dsimp only at hs'
    simp only [Op.switch?, Option.getD_none, Bool.and_true]
    obtain ⟨hsame, hstays⟩ | ⟨change, hlatest, hhandle⟩ := d.perform_touch_cases t
    · rw [hsame] at hs'
      refine .inr ⟨?_, s', hs', rfl⟩
      cases hlatest : t.latest with
      | none => simp [press?, hlatest]
      | some change => simp [press?, hlatest, (hstays change hlatest).1]
    · rw [hhandle] at hs'
      by_cases hbegan : change.action = .began
      · rw [handle, hbegan] at hs'
        cases hacting : t.acting? with
        | none =>
          refine .inr ⟨by simp [press?, hlatest, hacting], s', ?_, rfl⟩
          simpa [begin, hacting] using hs'
        | some contact =>
          refine .inl ⟨change.time, contact.location,
            by simp [press?, hlatest, hacting, hbegan], ?_⟩
          simp only [begin, hacting, Option.some.injEq] at hs'
          obtain rfl := hs'
          rfl
      · refine .inr ⟨?_, doubleTap_handle (d := { d with lastTime := some change.time }) hbegan hs'⟩
        simp [press?, hlatest, hbegan]
  | tick now =>
    refine .inr ⟨rfl, ?_⟩
    simp only [Op.switch?, Option.getD_none, Bool.and_true]
    cases hd : d.stream with
    | none => cases (stream_tick_eq_none_iff.mpr hd).symm.trans hs'
    | some s =>
      obtain ⟨s₁, hs₁, hsame⟩ := focus_tick hd now
      obtain rfl := Option.some.inj (hs₁.symm.trans hs')
      exact ⟨s, rfl, hsame.doubleTap⟩
  | reset => cases hs'
  | configure settings =>
    obtain ⟨s, hs, rfl⟩ := Option.map_eq_some_iff.mp hs'
    exact .inr ⟨rfl, s, hs, rfl⟩
  | setDoubleTap enabled =>
    have hstream := stream_setDoubleTap d enabled
    obtain ⟨s, hs, rfl⟩ := Option.map_eq_some_iff.mp (hstream.symm.trans hs')
    exact .inr ⟨rfl, s, hs, rfl⟩

-- A step leaves it at what double taps are switched to, unless it switches them.
theorem doubleTap_after (m : Moment) :
    m.after.settings.doubleTap = m.op.switch?.getD m.before.settings.doubleTap := by
  obtain ⟨d, op⟩ := m
  unfold after
  cases op with
  | touch t =>
    dsimp only
    obtain ⟨hsame, -⟩ | ⟨change, -, hhandle⟩ := d.perform_touch_cases t
    · rw [hsame]
      rfl
    · rw [hhandle, settings_handle]
      rfl
  | tick now => exact congrArg (·.doubleTap) (settings_tick d now)
  | reset | configure settings => rfl
  | setDoubleTap enabled => cases enabled <;> rfl

theorem length_le_one (m : Moment) : m.taps.length + m.doubleTaps.length ≤ 1 :=
  m.fate.length_le_one

-- The last tap after a step is that of the step, or the one before if the step does nothing
-- about taps.
theorem lastTap_after_iff {m : Moment} {tap : LastTap} :
    m.after.lastTap = some tap ↔ tap ∈ m.taps ∨
      (m.taps = [] ∧ m.doubleTaps = [] ∧ m.forgets = false) ∧ m.before.lastTap = some tap :=
  m.fate.lastTap_iff

-- A step after which a stream is under way has completed nothing.
theorem nothing_of_stream {m : Moment} {s : Stream} (hs : m.after.stream = some s) :
    m.taps = [] ∧ m.doubleTaps = [] := by
  constructor
  · by_contra htap
    cases (m.fate.of_tap htap).2.symm.trans hs
  · by_contra hdouble
    cases (m.fate.of_doubleTap hdouble).2.symm.trans hs

-- A press begins a stream.
theorem stream_of_press? {m : Moment} (h : m.press? ≠ none) : m.after.stream ≠ none := by
  obtain ⟨d, op⟩ := m
  unfold after
  cases op with
  | touch t =>
    dsimp only
    obtain ⟨-, hstays⟩ | ⟨change, hlatest, hhandle⟩ := d.perform_touch_cases t
    · refine absurd ?_ h
      cases hlatest : t.latest with
      | none => simp [press?, hlatest]
      | some change => simp [press?, hlatest, (hstays change hlatest).1]
    · by_cases hbegan : change.action = .began
      · rw [hhandle, handle, hbegan]
        cases hacting : t.acting? with
        | none => exact absurd (by simp [press?, hlatest, hacting]) h
        | some contact => simp [begin, hacting]
      · exact absurd (by simp [press?, hlatest, hbegan]) h
  | tick | reset | configure | setDoubleTap => exact absurd rfl h

-- A step that ends a stream goes on with the stream it found, as those before it.
theorem underway_concat {since : List Moment} {m : Moment} {s : Stream}
    (hsince : ∀ m ∈ since, m.press? = none ∧ m.before.stream.isSome)
    (hs : m.before.stream = some s) (hnone : m.after.stream = none) :
    ∀ m' ∈ since ++ [m], m'.press? = none ∧ m'.before.stream.isSome := by
  intro m' hm'
  obtain hm' | hm' := List.mem_append.mp hm'
  · exact hsince m' hm'
  · obtain rfl := List.mem_singleton.mp hm'
    refine ⟨?_, Option.isSome_of_mem hs⟩
    by_contra hpress
    exact stream_of_press? hpress hnone

theorem switch?_of_press? {m : Moment} (h : m.press? ≠ none) : m.op.switch? = none := by
  obtain ⟨d, op⟩ := m
  cases op with
  | touch | tick | reset => rfl
  | configure | setDoubleTap => exact absurd rfl h

end Moment

def performAll (d : Detector) (ops : List Op) : Detector :=
  ops.foldl (fun d op => (d.perform op).2) d

def history (d : Detector) : List Op → List Moment
  | [] => []
  | op :: rest => ⟨d, op⟩ :: (d.perform op).2.history rest

section History

variable {d : Detector} {ops : List Op} {s : Stream} {tap : LastTap}

theorem performAll_append (d : Detector) (first second : List Op) :
    d.performAll (first ++ second) = (d.performAll first).performAll second :=
  List.foldl_append

theorem history_append (d : Detector) (first second : List Op) :
    d.history (first ++ second) = d.history first ++ (d.performAll first).history second := by
  induction first generalizing d with
  | nil => rfl
  | cons op rest ih => exact congrArg (⟨d, op⟩ :: ·) (ih (d.perform op).2)

theorem performAll_concat (d : Detector) (ops : List Op) (op : Op) :
    d.performAll (ops ++ [op]) = Moment.after ⟨d.performAll ops, op⟩ := by
  simp [performAll, Moment.after]

theorem history_concat (d : Detector) (ops : List Op) (op : Op) :
    d.history (ops ++ [op]) = d.history ops ++ [⟨d.performAll ops, op⟩] :=
  history_append d ops [op]

-- What is turned down leaves no trace.
theorem performAll_of_refused (h : ∀ op ∈ ops, d.perform op = ([], d)) :
    d.performAll ops = d ∧ ∀ m ∈ d.history ops, m.gestures = [] := by
  induction ops with
  | nil => exact ⟨rfl, by simp [history]⟩
  | cons op rest ih =>
    have hop := h op (by simp)
    obtain ⟨hrest, hnothing⟩ := ih fun op hop => h op (by simp [hop])
    have hall : d.performAll (op :: rest) = (d.perform op).2.performAll rest := rfl
    rw [hall, history, hop, List.forall_mem_cons]
    exact ⟨hrest, congrArg Prod.fst hop, hnothing⟩

-- A step found the detector where the operations before had led it.
theorem exists_of_history_eq {before after : List Moment} {m : Moment}
    (h : d.history ops = before ++ m :: after) :
    ∃ first rest op, ops = first ++ op :: rest ∧ d.history first = before ∧
      m = ⟨d.performAll first, op⟩ := by
  induction before generalizing d ops with
  | nil =>
    cases ops with
    | nil => cases h
    | cons op rest =>
      obtain ⟨rfl, -⟩ := List.cons.inj h
      exact ⟨[], rest, op, rfl, rfl, rfl⟩
  | cons x before ih =>
    cases ops with
    | nil => cases h
    | cons op rest =>
      obtain ⟨rfl, hrest⟩ := List.cons.inj h
      obtain ⟨first, rest, op', rfl, rfl, rfl⟩ := ih hrest
      exact ⟨op :: first, rest, op', rfl, rfl, rfl⟩

-- A tap is remembered from when it was completed until something is done about taps.
theorem lastTap_performAll_iff (hd : d.lastTap = none) :
    (d.performAll ops).lastTap = some tap ↔
      Since (fun m => tap ∈ m.taps)
        (fun m => m.taps = [] ∧ m.doubleTaps = [] ∧ m.forgets = false) (d.history ops) := by
  induction ops using List.reverseRecOn with
  | nil => exact iff_of_false (by simp [performAll, hd]) not_since_nil
  | append_singleton ops op ih =>
    rw [performAll_concat, history_concat, since_concat, Moment.lastTap_after_iff, ih]

-- A stream is under way since the press that began it. Whether it can end as a double tap is
-- decided at the press, and later by nothing but switching double taps off.
theorem exists_press_of_stream (hd : d.stream = none) (hs : (d.performAll ops).stream = some s) :
    ∃ (first : List Moment) (y : Moment) (since : List Moment) (time : Time) (location : Point),
      d.history ops = first ++ y :: since ∧ y.press? = some (time, location) ∧
      (∀ m ∈ since, m.press? = none ∧ m.before.stream.isSome) ∧
      (∀ m ∈ y :: since, m.taps = [] ∧ m.doubleTaps = []) ∧
      s.doubleTap = (y.before.followsTap time location &&
        since.all (·.before.settings.doubleTap) && (d.performAll ops).settings.doubleTap) := by
  induction ops using List.reverseRecOn generalizing s with
  | nil => cases hd.symm.trans hs
  | append_singleton ops op ih =>
    rw [performAll_concat] at hs ⊢
    rw [history_concat]
    have hnothing := Moment.nothing_of_stream hs
    obtain ⟨time, location, hpress, hdouble⟩ | ⟨hpress, s₁, hs₁, hdouble⟩ :=
      Moment.stream_cases hs
    · refine ⟨d.history ops, _, [], time, location, rfl, hpress, by simp, by simpa using hnothing,
        ?_⟩
      have hkept : (Moment.after ⟨d.performAll ops, op⟩).settings.doubleTap =
          (d.performAll ops).settings.doubleTap := by
        rw [Moment.doubleTap_after, Moment.switch?_of_press? (by simp [hpress]), Option.getD_none]
      rw [hdouble, hkept]
      simp only [followsTap, List.all_nil, Bool.and_true]
      cases (d.performAll ops).settings.doubleTap <;> simp
    · obtain ⟨first, y, since, time, location, hhistory, hy, hsince, hquiet, hfollows⟩ := ih hs₁
      refine ⟨first, y, since ++ [⟨d.performAll ops, op⟩], time, location, by simp [hhistory], hy,
        ?_, ?_, ?_⟩
      · intro m hm
        obtain hm | hm := List.mem_append.mp hm
        · exact hsince m hm
        · rw [List.mem_singleton.mp hm]
          exact ⟨hpress, Option.isSome_of_mem hs₁⟩
      · simpa [or_imp, forall_and, hnothing] using hquiet
      · rw [hdouble, hfollows, Moment.doubleTap_after]
        cases op.switch? <;> simp [Bool.and_assoc]

end History

end TouchGestures.Detector
