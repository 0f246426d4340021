import Mathlib.Data.List.Forall2
import Mathlib.Data.List.Nodup
import TouchGestures.Settings.Encoding

namespace TouchGestures

namespace Datum

theorem lookup_of_mem {entries : List (String × Datum)} {name : String} {value : Datum}
    (hnodup : (entries.map Prod.fst).Nodup) (h : (name, value) ∈ entries) :
    entries.lookup name = some value := by
  obtain ⟨before, after, rfl⟩ := List.append_of_mem h
  rw [List.map_append, List.map_cons, List.nodup_append] at hnodup
  refine List.lookup_eq_some_iff.mpr ⟨before, after, rfl, fun entry hentry => ?_⟩
  have hne : entry.1 ≠ name :=
    hnodup.2.2 _ (List.mem_map_of_mem hentry) name List.mem_cons_self
  simp [hne.symm]

theorem mapM_lookup {entries : List (String × Datum)} {names : List String} {values : List Datum}
    (h : List.Forall₂ (fun name value => entries.lookup name = some value) names values) :
    (names.mapM fun name => entries.lookup name) = some values := by
  induction h with
  | nil => rfl
  | cons hfirst _ ih => simp [hfirst, ih]

-- A record has the values that it was made of.
theorem fields?_record {names : List String} {values : List Datum} (hnodup : names.Nodup)
    (hlength : values.length = names.length) :
    (record (names.zip values)).fields? names = some values := by
  have hnames : (names.zip values).map Prod.fst = names :=
    List.map_fst_zip (Nat.le_of_eq hlength.symm)
  refine mapM_lookup (List.forall₂_iff_zip.mpr ⟨hlength.symm, fun hmem => ?_⟩)
  exact lookup_of_mem (hnames.symm ▸ hnodup) hmem

-- Two data hold the same in the named fields, each of which is compared in its own way.
def SameFields (fields : List (String × (Datum → Datum → Prop))) (d d' : Datum) : Prop :=
  ∃ pairs : List (Datum × Datum),
    d.fields? (fields.map Prod.fst) = some (pairs.map Prod.fst) ∧
      d'.fields? (fields.map Prod.fst) = some (pairs.map Prod.snd) ∧
        List.Forall₂ (fun field pair => field.2 pair.1 pair.2) fields pairs

-- Two data are read as the same number.
def SameNumber (d d' : Datum) : Prop := ∃ x, Scalar.decode? d = some x ∧ Scalar.decode? d' = some x

end Datum

theorem encodeWord_of_decodeWord? {d : Datum} {n : UInt64} (h : decodeWord? d = some n) :
    encodeWord n = d := by
  unfold decodeWord? at h
  split at h
  · next k =>
    obtain ⟨⟨hnonneg, hlt⟩, hn⟩ := Option.ite_none_right_eq_some.mp h
    cases hn
    have htoNat : (UInt64.ofNat k.toNat).toNat = k.toNat := UInt64.toNat_ofNat_of_lt hlt
    rw [encodeWord, htoNat, Int.toNat_of_nonneg hnonneg]
  · cases h

theorem bool_of_decodeFlag? {d : Datum} {b : Bool} (h : decodeFlag? d = some b) :
    .bool b = d := by
  unfold decodeFlag? at h
  split at h <;> cases h
  rfl

theorem Scalar.sameNumber_encode {d : Datum} {x : Scalar} (h : decode? d = some x)
    (hfinite : x.isFinite = true) : Datum.SameNumber d x.encode :=
  ⟨x, h, decode?_encode hfinite⟩

namespace Duration

def whole (d : Duration) : Duration := milliseconds (d / milliseconds 1)

-- What is read where the length of time has been written.
def stored (d : Duration) : Duration := milliseconds (d / milliseconds 1 % UInt64.size)

theorem decode?_encode (d : Duration) : decode? d.encode = some d.stored := by
  simp [decode?, encode, decodeWord?_encodeWord, stored]

theorem encode_of_decode? {d : Datum} {length : Duration} (h : decode? d = some length) :
    length.encode = d := by
  obtain ⟨n, hn, rfl⟩ := Option.map_eq_some_iff.mp h
  have hcount : milliseconds n.toNat / milliseconds 1 = n.toNat := by
    simp [milliseconds]
  rw [encode, hcount, UInt64.ofNat_toNat, encodeWord_of_decodeWord? hn]

-- Nothing but the fraction of a millisecond is lost just if the milliseconds fit in 64 bits.
theorem stored_eq_whole_iff {d : Duration} : d.stored = d.whole ↔ d < milliseconds UInt64.size := by
  have hinj : ∀ m n, milliseconds m = milliseconds n ↔ m = n :=
    fun _ _ => Nat.mul_left_inj (by decide)
  rw [stored, whole, hinj, Nat.mod_eq_iff_lt (by decide), Nat.div_lt_iff_lt_mul (by decide)]
  simp [milliseconds]

theorem stored_of_decode? {d : Datum} {length : Duration} (h : decode? d = some length) :
    length.stored = length := by
  rw [← encode_of_decode? h, decode?_encode] at h
  exact Option.some.inj h

theorem stored_eq_self_iff {d : Duration} :
    d.stored = d ↔ ∃ count < UInt64.size, d = milliseconds count := by
  constructor
  · exact fun h => ⟨_, Nat.mod_lt _ (by decide), h.symm⟩
  · rintro ⟨count, hlt, rfl⟩
    simp [stored, milliseconds, Nat.mod_eq_of_lt hlt]

end Duration

namespace Thresholds

def Finite (t : Thresholds) : Prop :=
  ∀ x ∈ [t.touchSlop, t.doubleTapSlop, t.minimumFlingVelocity, t.maximumFlingVelocity,
    t.minimumPinchDelta], x.isFinite = true

def durations (t : Thresholds) : List Duration :=
  [t.showPressDelay, t.longPressDelay, t.doubleTapTimeout]

def mapDurations (f : Duration → Duration) (t : Thresholds) : Thresholds :=
  { t with
    showPressDelay := f t.showPressDelay
    longPressDelay := f t.longPressDelay
    doubleTapTimeout := f t.doubleTapTimeout }

-- Lengths of time have to be written alike, in whole milliseconds.
def Same : Datum → Datum → Prop :=
  Datum.SameFields (fieldNames.zip
    [Datum.SameNumber, Datum.SameNumber, Datum.SameNumber, Datum.SameNumber, Eq, Eq, Eq,
      Datum.SameNumber])

variable {t : Thresholds}

theorem decode?_encode (h : t.Finite) : decode? t.encode = some (t.mapDurations .stored) := by
  simp only [Finite, List.forall_mem_cons] at h
  obtain ⟨htouch, hdouble, hminimum, hmaximum, hpinch, -⟩ := h
  unfold decode? encode
  rw [Datum.fields?_record (by decide) rfl]
  simp [Scalar.decode?_encode, Duration.decode?_encode, mapDurations, *]

-- What has been read is written as it was found.
theorem same_encode {d : Datum} (hd : decode? d = some t) :
    t.mapDurations .stored = t ∧ (t.Finite → Same d t.encode) := by
  unfold decode? at hd
  split at hd
  · next touch double minimum maximum showPress longPress timeout pinch hfields =>
    simp only [Option.bind_eq_bind, Option.bind_eq_some_iff, Option.some.injEq] at hd
    obtain ⟨_, htouch, _, hdouble, _, hminimum, _, hmaximum, _, hshow, _, hlong, _, htimeout, _,
      hpinch, rfl⟩ := hd
    constructor
    · simp [mapDurations, Duration.stored_of_decode? hshow, Duration.stored_of_decode? hlong,
        Duration.stored_of_decode? htimeout]
    · intro h
      simp only [Finite, List.forall_mem_cons] at h
      obtain ⟨ftouch, fdouble, fminimum, fmaximum, fpinch, -⟩ := h
      refine ⟨[(touch, _), (double, _), (minimum, _), (maximum, _), (showPress, _),
        (longPress, _), (timeout, _), (pinch, _)], hfields,
        Datum.fields?_record (by decide) rfl, ?_⟩
      simp only [fieldNames, List.zip_cons_cons, List.zip_nil_left, List.forall₂_cons]
      exact ⟨Scalar.sameNumber_encode htouch ftouch, Scalar.sameNumber_encode hdouble fdouble,
        Scalar.sameNumber_encode hminimum fminimum, Scalar.sameNumber_encode hmaximum fmaximum,
        (Duration.encode_of_decode? hshow).symm, (Duration.encode_of_decode? hlong).symm,
        (Duration.encode_of_decode? htimeout).symm, Scalar.sameNumber_encode hpinch fpinch, .nil⟩
  · cases hd

end Thresholds

namespace ChannelSettings

def Same : Datum → Datum → Prop :=
  Datum.SameFields (fieldNames.zip [Thresholds.Same, Eq, Eq, Eq])

def mapDurations (f : Duration → Duration) (s : ChannelSettings) : ChannelSettings :=
  { s with thresholds := s.thresholds.mapDurations f }

variable {s : ChannelSettings}

theorem decode?_encode (h : s.thresholds.Finite) :
    decode? s.encode = some (s.mapDurations .stored) := by
  unfold decode? encode
  rw [Datum.fields?_record (by decide) rfl]
  simp [Thresholds.decode?_encode h, decodeFlag?, decodeWord?_encodeWord, mapDurations]

theorem same_encode {d : Datum} (hd : decode? d = some s) :
    s.mapDurations .stored = s ∧ (s.thresholds.Finite → Same d s.encode) := by
  unfold decode? at hd
  split at hd
  · next thresholds doubleTap pinch limit hfields =>
    simp only [Option.bind_eq_bind, Option.bind_eq_some_iff, Option.some.injEq] at hd
    obtain ⟨_, hthresholds, _, hdouble, _, hpinch, _, hlimit, rfl⟩ := hd
    obtain ⟨hstored, hsame⟩ := Thresholds.same_encode hthresholds
    refine ⟨by simp [mapDurations, hstored], fun h => ⟨[(thresholds, _), (doubleTap, _),
      (pinch, _), (limit, _)], hfields, Datum.fields?_record (by decide) rfl, ?_⟩⟩
    simp only [fieldNames, List.zip_cons_cons, List.zip_nil_left, List.forall₂_cons]
    exact ⟨hsame h, (bool_of_decodeFlag? hdouble).symm, (bool_of_decodeFlag? hpinch).symm,
      (encodeWord_of_decodeWord? hlimit).symm, .nil⟩
  · cases hd

end ChannelSettings

namespace Settings

def Finite (s : Settings) : Prop := s.channel.thresholds.Finite ∧ s.separation.isFinite = true

def durations (s : Settings) : List Duration := s.channel.thresholds.durations

def mapDurations (f : Duration → Duration) (s : Settings) : Settings :=
  { s with channel := s.channel.mapDurations f }

-- The same in all the fields of settings. Others do not matter.
def Same : Datum → Datum → Prop :=
  Datum.SameFields (fieldNames.zip [ChannelSettings.Same, Datum.SameNumber])

variable {s : Settings}

theorem decode?_encode (h : s.Finite) : decode? s.encode = some (s.mapDurations .stored) := by
  unfold decode? encode
  rw [Datum.fields?_record (by decide) rfl]
  simp [ChannelSettings.decode?_encode h.1, Scalar.decode?_encode h.2, mapDurations]

theorem same_encode {d : Datum} (hd : decode? d = some s) :
    s.mapDurations .stored = s ∧ (s.Finite → Same d s.encode) := by
  unfold decode? at hd
  split at hd
  · next channel separation hfields =>
    simp only [Option.bind_eq_bind, Option.bind_eq_some_iff, Option.some.injEq] at hd
    obtain ⟨_, hchannel, _, hseparation, rfl⟩ := hd
    obtain ⟨hstored, hsame⟩ := ChannelSettings.same_encode hchannel
    refine ⟨by simp [mapDurations, hstored], fun h => ⟨[(channel, _), (separation, _)], hfields,
      Datum.fields?_record (by decide) rfl, ?_⟩⟩
    simp only [fieldNames, List.zip_cons_cons, List.zip_nil_left, List.forall₂_cons]
    exact ⟨hsame h.1, Scalar.sameNumber_encode hseparation h.2, .nil⟩
  · cases hd

theorem mapDurations_eq_iff {f g : Duration → Duration} :
    s.mapDurations f = s.mapDurations g ↔ ∀ d ∈ s.durations, f d = g d := by
  simp [mapDurations, ChannelSettings.mapDurations, durations, Thresholds.mapDurations,
    Thresholds.durations]

-- A length of time that has been read comes back as it is.
theorem stored_of_mem_durations {d : Datum} (hd : decode? d = some s) {length : Duration}
    (hmem : length ∈ s.durations) : length.stored = length := by
  have hstored : s.mapDurations .stored = s.mapDurations id := (same_encode hd).1
  exact mapDurations_eq_iff.mp hstored length hmem

-- Settings without infinities and NaN can be read again where they were written, except that
-- of the milliseconds only the last 64 bits come back. So they come back rounded down to
-- whole milliseconds just if these fit in 64 bits, and as they were just if they are whole
-- as well. Whatever they have been read from holds the same as what is then written.
theorem roundTrip (h : s.Finite) :
    decode? s.encode = some (s.mapDurations .stored) ∧
      (decode? s.encode = some (s.mapDurations .whole) ↔
        ∀ d ∈ s.durations, d < Duration.milliseconds UInt64.size) ∧
      (decode? s.encode = some s ↔
        ∀ d ∈ s.durations, ∃ count < UInt64.size, d = Duration.milliseconds count) ∧
      ∀ d, decode? d = some s → Same d s.encode ∧ decode? s.encode = some s := by
  have hid : s.mapDurations id = s := rfl
  refine ⟨decode?_encode h, ?_, ?_, fun d hd => ⟨(same_encode hd).2 h, ?_⟩⟩
  · rw [decode?_encode h, Option.some.injEq, mapDurations_eq_iff]
    exact forall₂_congr fun _ _ => Duration.stored_eq_whole_iff
  · nth_rewrite 2 [← hid]
    rw [decode?_encode h, Option.some.injEq, mapDurations_eq_iff]
    exact forall₂_congr fun _ _ => Duration.stored_eq_self_iff
  · rw [decode?_encode h, (same_encode hd).1]

-- Half a millisecond is lost.
theorem roundTrip_of_fraction :
    let s : Settings := { channel := { thresholds := { longPressDelay := 650500000 } } }
    s.Finite ∧ decode? s.encode =
      some { channel := { thresholds := { longPressDelay := 650000000 } } } := by
  intro s
  have hfinite : s.Finite := by
    simp only [Finite, Thresholds.Finite]
    decide +kernel
  have hwhole : s.mapDurations .whole =
      { channel := { thresholds := { longPressDelay := 650000000 } } } := by
    decide +kernel
  exact ⟨hfinite, hwhole ▸ (roundTrip hfinite).2.1.mpr (by decide +kernel)⟩

-- A delay of as many milliseconds as do not fit in 64 bits any more comes back as no delay, and
-- there is no other document either from which it would come back.
theorem not_roundTrip_of_size :
    let s : Settings :=
      { channel := { thresholds := { showPressDelay := Duration.milliseconds UInt64.size } } }
    s.Finite ∧ decode? s.encode = some { channel := { thresholds := { showPressDelay := 0 } } } ∧
      s.mapDurations .whole = s ∧ ∀ d, decode? d ≠ some s := by
  intro s
  have hfinite : s.Finite := by
    simp only [Finite, Thresholds.Finite]
    decide +kernel
  have hstored : s.mapDurations .stored =
      { channel := { thresholds := { showPressDelay := 0 } } } := by
    decide +kernel
  have hwhole : s.mapDurations .whole = s := by
    decide +kernel
  refine ⟨hfinite, hstored ▸ decode?_encode hfinite, hwhole, fun d hd => ?_⟩
  have hkept : (Duration.milliseconds UInt64.size).stored = Duration.milliseconds UInt64.size :=
    stored_of_mem_durations hd List.mem_cons_self
  exact absurd hkept (by decide +kernel)

end Settings

end TouchGestures
