import WaxxyLive.Lib.Bytes
import WaxxyLive.LiveKit.StreamingBuffer
import WaxxyLive.MuxConfiguration

/-!
# The video encoder

`LFHardwareVideoEncoder` hands pictures to a compression session, which calls
back with a buffer of NAL units, each behind its length. The callback makes one
frame of each unit. All frames carry the parameter sets of the first key frame
that had any.
-/

namespace WaxxyLive.LiveKit

open Bytes

/-! ## The encoder -/

/-- `currentVideoBitRate` is stored as it is set, as 64 bits. -/
structure LFHardwareVideoEncoder where
  configuration : Mux.LFLiveVideoConfiguration
  frameCount : Nat := 0
  sps : Option (List UInt8) := none
  pps : Option (List UInt8) := none
  currentVideoBitRate : UInt64 := 0
  isBackGround : Bool := false

/-- What `VideoCompressonOutputCallback` reads from a sample buffer: whether its
attachments say that it is no key frame, its parameter sets, and the bytes at
its data pointer with the total length. -/
structure SampleBuffer where
  notSync : Option Bool := some false
  parameterSets : Option (List UInt8 × List UInt8) := none
  data : Option (List UInt8 × Nat) := none

/-- A call of `VideoCompressonOutputCallback`; `object` is the identity of the
next frame made. -/
structure Callback where
  noErr : Bool := true
  timeStamp : UInt64 := 0
  object : Nat := 0
  sampleBuffer : Option SampleBuffer := none

namespace LFHardwareVideoEncoder

def avccHeaderLength : Nat := 4

/-- The loop over the NAL units from `bufferOffset` on. The end it runs to is
computed without sign, and its last summand in 32 bits. It is `none` where it
reads behind the bytes. -/
def nalUnits (bytes : List UInt8) (totalLength : Nat) :
    Nat → Nat → Option (List (List UInt8))
  | 0, _ => none
  | fuel + 1, bufferOffset =>
    if bufferOffset < (totalLength + 2 ^ 64 - avccHeaderLength) % 2 ^ 64 then do
      let (header, rest) ← takeN avccHeaderLength (bytes.drop bufferOffset)
      let nalUnitLength := unbe header
      let (unit, _) ← takeN nalUnitLength rest
      let units ← nalUnits bytes totalLength fuel
        (bufferOffset + (avccHeaderLength + nalUnitLength) % 2 ^ 32)
      return unit :: units
    else some []

/-- The sample buffer that the callback goes on with, and whether it is a key frame. -/
def accepted (c : Callback) : Option (SampleBuffer × Bool) :=
  match c.sampleBuffer with
  | none => none
  | some sample =>
    match sample.notSync with
    | none => none
    | some notSync => if c.noErr then some (sample, !notSync) else none

/-- The parameter sets are taken from a key frame, once. -/
def keepParameterSets (e : LFHardwareVideoEncoder) (sample : SampleBuffer) (keyframe : Bool) :
    LFHardwareVideoEncoder :=
  if keyframe ∧ e.sps.isNone then
    match sample.parameterSets with
    | some (sps, pps) => { e with sps := some sps, pps := some pps }
    | none => e
  else e

def videoFrame (e : LFHardwareVideoEncoder) (timestamp : UInt64) (isKeyFrame : Bool)
    (unit : List UInt8 × Nat) : LFFrame where
  object := unit.2
  timestamp := timestamp
  data := unit.1
  kind := .video isKeyFrame e.sps e.pps

/-- `VideoCompressonOutputCallback`, and the frames it passes on. -/
def compressionOutput (e : LFHardwareVideoEncoder) (c : Callback) :
    Option (LFHardwareVideoEncoder × List LFFrame) :=
  match accepted c with
  | none => some (e, [])
  | some (sample, keyframe) =>
    let e := e.keepParameterSets sample keyframe
    match sample.data with
    | none => some (e, [])
    | some (bytes, totalLength) =>
      (nalUnits bytes totalLength (totalLength + 1) 0).map fun units =>
        (e, (units.zipIdx c.object).map (e.videoFrame c.timeStamp keyframe))

/-! ## The compression session -/

/-- `resetCompressionSession`; `created` says that there is a new session. -/
def resetCompressionSession (e : LFHardwareVideoEncoder) (created : Bool) :
    LFHardwareVideoEncoder :=
  if created then
    { e with currentVideoBitRate := UInt64.ofNat e.configuration.videoBitRate.rate }
  else e

/-- `initWithVideoStreamConfiguration:` -/
def init (configuration : Mux.LFLiveVideoConfiguration) (created : Bool) :
    LFHardwareVideoEncoder :=
  ({ configuration } : LFHardwareVideoEncoder).resetCompressionSession created

def setVideoBitRate (e : LFHardwareVideoEncoder) (videoBitRate : UInt64) :
    LFHardwareVideoEncoder :=
  if e.isBackGround then e else { e with currentVideoBitRate := videoBitRate }

/-- `encodeVideoData:timeStamp:`, when the session takes the picture, and when
it refuses it and is reset. -/
def encodeVideoData (e : LFHardwareVideoEncoder) (noErr created : Bool) :
    LFHardwareVideoEncoder :=
  if e.isBackGround then e
  else
    let e := { e with frameCount := e.frameCount + 1 }
    if noErr then e else e.resetCompressionSession created

def willEnterBackground (e : LFHardwareVideoEncoder) : LFHardwareVideoEncoder :=
  { e with isBackGround := true }

def willEnterForeground (e : LFHardwareVideoEncoder) (created : Bool) : LFHardwareVideoEncoder :=
  { e.resetCompressionSession created with isBackGround := false }

/-! ## The units of a buffer -/

/-- NAL units, each behind its length. -/
def avcc (units : List (List UInt8)) : List UInt8 :=
  units.flatMap fun unit => be avccHeaderLength unit.length ++ unit

@[simp] theorem avcc_nil : avcc [] = [] := rfl

@[simp] theorem avcc_cons (unit : List UInt8) (units : List (List UInt8)) :
    avcc (unit :: units) = be avccHeaderLength unit.length ++ (unit ++ avcc units) := by
  simp [avcc]

/-- The units of a buffer, up to four bytes at its end that are not looked at.
A unit that is empty is seen only if something comes after it. -/
def Splits (bytes : List UInt8) (units : List (List UInt8)) : Prop :=
  ∃ rest, bytes = avcc units ++ rest ∧ rest.length ≤ 4 ∧ (units.getLast? = some [] → rest ≠ [])

theorem splits_nil {bytes : List UInt8} : Splits bytes [] ↔ bytes.length ≤ 4 := by
  constructor
  · rintro ⟨rest, rfl, hrest, -⟩
    simpa using hrest
  · intro h
    exact ⟨bytes, by simp, h, by simp⟩

theorem splits_cons {bytes unit : List UInt8} {units : List (List UInt8)} :
    Splits bytes (unit :: units) ↔
      ∃ rest, bytes = be avccHeaderLength unit.length ++ (unit ++ rest) ∧
        0 < unit.length + rest.length ∧ Splits rest units := by
  constructor
  · rintro ⟨more, rfl, hmore, hlast⟩
    refine ⟨avcc units ++ more, by simp, ?_, more, rfl, hmore, ?_⟩
    · cases units with
      | nil =>
        cases unit with
        | nil => simpa using List.length_pos_iff.mpr (hlast rfl)
        | cons b unit => simp
      | cons unit' units => simp [avccHeaderLength]
    · intro h
      apply hlast
      cases units with
      | nil => simp at h
      | cons unit' units => simpa using h
  · rintro ⟨rest, rfl, hpos, more, rfl, hmore, hlast⟩
    refine ⟨more, by simp, hmore, ?_⟩
    cases units with
    | nil =>
      rintro hunit rfl
      obtain rfl : unit = [] := by simpa using hunit
      simp at hpos
    | cons unit' units => simpa using hlast

/-- The block behind a length, if there is room for it. -/
theorem exists_unit {bytes : List UInt8} (h : 4 < bytes.length) :
    ∃ header tail, header.length = avccHeaderLength ∧
      header = be avccHeaderLength (unbe header) ∧ bytes = header ++ tail ∧ tail ≠ [] := by
  have hheader : (bytes.take 4).length = avccHeaderLength := List.length_take_of_le h.le
  refine ⟨bytes.take 4, bytes.drop 4, hheader, ?_, (List.take_append_drop 4 bytes).symm, ?_⟩
  · rw [← hheader, be_unbe]
  · simpa [List.drop_eq_nil_iff] using h

/-- One round of the loop. -/
theorem nalUnits_succ {bytes : List UInt8} {units : List (List UInt8)} {fuel offset : Nat}
    (h32 : bytes.length < 2 ^ 32) (hmore : offset + 4 < bytes.length) :
    nalUnits bytes bytes.length (fuel + 1) offset = some units ↔
      ∃ unit units' rest, units = unit :: units' ∧
        bytes.drop offset = be avccHeaderLength unit.length ++ (unit ++ rest) ∧
        nalUnits bytes bytes.length fuel (offset + (4 + unit.length)) = some units' := by
  have hend : (bytes.length + 2 ^ 64 - avccHeaderLength) % 2 ^ 64 = bytes.length - 4 := by
    unfold avccHeaderLength
    omega
  obtain ⟨header, tail, hheader, hbe, hsplit, -⟩ :=
    @exists_unit (bytes.drop offset) (by rw [List.length_drop]; omega)
  have htail : tail.length < 2 ^ 32 - 4 := by
    have hlength := congrArg List.length hsplit
    simp only [List.length_drop, List.length_append, hheader, avccHeaderLength] at hlength
    omega
  rw [nalUnits, hend, if_pos (by omega), hsplit, takeN_append hheader]
  simp only [Option.bind_eq_bind, Option.bind_some, Option.bind_eq_some_iff, Option.pure_def,
    Option.some.injEq, Prod.exists, takeN_eq_some]
  constructor
  · rintro ⟨unit, rest, ⟨rfl, hunit⟩, units', hloop, rfl⟩
    have hstep : (avccHeaderLength + unbe header) % 2 ^ 32 = 4 + unit.length := by
      rw [hunit, avccHeaderLength, Nat.mod_eq_of_lt (by simp at htail; omega)]
    rw [hstep] at hloop
    have hhead : header = be avccHeaderLength unit.length := by
      rw [hunit]
      exact hbe
    exact ⟨unit, units', rest, rfl, by rw [← hhead], hloop⟩
  · rintro ⟨unit, units', rest, rfl, heq, hloop⟩
    obtain ⟨hhead, rfl⟩ := List.append_inj heq (by simp [hheader])
    have hunit : unit.length < 2 ^ 32 - 4 := by
      simp only [List.length_append] at htail
      omega
    have hread : unbe header = unit.length := by
      rw [hhead]
      exact unbe_be_of_lt (by unfold avccHeaderLength; omega)
    have hstep : (avccHeaderLength + unbe header) % 2 ^ 32 = 4 + unit.length := by
      rw [hread, avccHeaderLength, Nat.mod_eq_of_lt (by omega)]
    rw [hstep]
    exact ⟨unit, rest, ⟨rfl, hread.symm⟩, units', hloop, rfl⟩

/-- The loop, from a place inside the buffer on. -/
theorem nalUnits_eq_some_iff {bytes : List UInt8} {units : List (List UInt8)} {fuel offset : Nat}
    (h4 : 4 ≤ bytes.length) (h32 : bytes.length < 2 ^ 32) (hle : offset ≤ bytes.length)
    (hfuel : bytes.length < fuel + offset) :
    nalUnits bytes bytes.length fuel offset = some units ↔
      Splits (bytes.drop offset) units := by
  induction fuel generalizing offset units with
  | zero => omega
  | succ fuel ih =>
    by_cases hmore : offset + 4 < bytes.length
    · rw [nalUnits_succ h32 hmore]
      -- a unit taken leaves the loop behind it
      have hnext : ∀ {unit rest : List UInt8},
          bytes.drop offset = be avccHeaderLength unit.length ++ (unit ++ rest) →
          0 < unit.length + rest.length ∧ offset + (4 + unit.length) ≤ bytes.length ∧
            bytes.drop (offset + (4 + unit.length)) = rest := by
        intro unit rest heq
        have hlength := congrArg List.length heq
        simp only [List.length_drop, List.length_append, length_be, avccHeaderLength] at hlength
        refine ⟨by omega, by omega, ?_⟩
        rw [← List.drop_drop, heq, ← List.append_assoc]
        exact List.drop_left' (by simp [avccHeaderLength])
      constructor
      · rintro ⟨unit, units', rest, rfl, heq, hloop⟩
        obtain ⟨hpos, hplace, hdrop⟩ := hnext heq
        rw [ih hplace (by omega), hdrop] at hloop
        exact splits_cons.mpr ⟨rest, heq, hpos, hloop⟩
      · intro hs
        cases units with
        | nil =>
          have hshort := splits_nil.mp hs
          rw [List.length_drop] at hshort
          omega
        | cons unit units' =>
          obtain ⟨rest, heq, -, hs⟩ := splits_cons.mp hs
          obtain ⟨-, hplace, hdrop⟩ := hnext heq
          refine ⟨unit, units', rest, rfl, heq, ?_⟩
          rw [ih hplace (by omega), hdrop]
          exact hs
    · have hend : (bytes.length + 2 ^ 64 - avccHeaderLength) % 2 ^ 64 = bytes.length - 4 := by
        unfold avccHeaderLength
        omega
      rw [nalUnits, hend, if_neg (by omega)]
      have hlen : (bytes.drop offset).length ≤ 4 := by
        rw [List.length_drop]
        omega
      constructor
      · intro h
        obtain rfl := Option.some.inj h
        exact splits_nil.mpr hlen
      · intro h
        cases units with
        | nil => rfl
        | cons unit units =>
          obtain ⟨rest, heq, hpos, -⟩ := splits_cons.mp h
          rw [heq] at hlen
          simp only [List.length_append, length_be, avccHeaderLength] at hlen
          omega

theorem nalUnits_short {bytes : List UInt8} (fuel : Nat) (h : bytes.length < 4) :
    nalUnits bytes bytes.length fuel 0 = none := by
  cases fuel with
  | zero => rfl
  | succ fuel =>
    have hend : 0 < (bytes.length + 2 ^ 64 - avccHeaderLength) % 2 ^ 64 := by
      unfold avccHeaderLength
      omega
    have htake : takeN avccHeaderLength (bytes.drop 0) = none := by
      simp only [List.drop_zero, takeN, avccHeaderLength]
      exact if_neg (by omega)
    rw [nalUnits, if_pos hend, htake]
    rfl

/-- The callback makes one frame of each unit of the buffer, in order, and it
stays inside the buffer exactly when it holds whole units and at most four
bytes behind them. -/
theorem unit_frames_iff {e : LFHardwareVideoEncoder} {c : Callback} {sample : SampleBuffer}
    {keyframe : Bool} {bytes : List UInt8} {units : List (List UInt8)}
    (hc : accepted c = some (sample, keyframe)) (hd : sample.data = some (bytes, bytes.length))
    (h32 : bytes.length < 2 ^ 32) :
    (e.compressionOutput c).map (fun o => o.2.map LFFrame.data) = some units ↔
      4 ≤ bytes.length ∧ Splits bytes units := by
  have hdata : ∀ (e : LFHardwareVideoEncoder) (units : List (List UInt8)),
      ((units.zipIdx c.object).map (e.videoFrame c.timeStamp keyframe)).map LFFrame.data =
        units := by
    intro e units
    rw [List.map_map]
    exact List.zipIdx_map_fst _ _
  have hout : (e.compressionOutput c).map (fun o => o.2.map LFFrame.data) =
      nalUnits bytes bytes.length (bytes.length + 1) 0 := by
    simp only [compressionOutput, hc, hd, Option.map_map, Function.comp_def, hdata,
      Option.map_id']
  rw [hout]
  by_cases h4 : 4 ≤ bytes.length
  · rw [nalUnits_eq_some_iff h4 h32 (Nat.zero_le _) (by omega), List.drop_zero]
    simp [h4]
  · rw [nalUnits_short _ (by omega)]
    simp [h4]

/-- A key frame of two units. -/
def twoUnits : Callback where
  timeStamp := 40
  sampleBuffer := some {
    parameterSets := some ([0x67, 0x4d, 0x00, 0x1f], [0x68])
    data := some ([0, 0, 0, 2, 0x06, 0x05, 0, 0, 0, 1, 0x65], 11) }

theorem unit_frames_twoUnits :
    ((init {} true).compressionOutput twoUnits).map (fun o => o.2.map LFFrame.data) =
      some [[0x06, 0x05], [0x65]] :=
  (unit_frames_iff rfl rfl (by decide)).mpr
    ⟨by decide, [], rfl, by decide, by decide⟩

/-! ## The parameter sets of a run -/

/-- What happens to an encoder. -/
inductive Action where
  | callback (c : Callback)
  | setVideoBitRate (videoBitRate : UInt64)
  | encodeVideoData (noErr created : Bool)
  | willEnterBackground
  | willEnterForeground (created : Bool)

def act (e : LFHardwareVideoEncoder) : Action → Option (LFHardwareVideoEncoder × List LFFrame)
  | .callback c => e.compressionOutput c
  | .setVideoBitRate videoBitRate => some (e.setVideoBitRate videoBitRate, [])
  | .encodeVideoData noErr created => some (e.encodeVideoData noErr created, [])
  | .willEnterBackground => some (e.willEnterBackground, [])
  | .willEnterForeground created => some (e.willEnterForeground created, [])

def step (e : LFHardwareVideoEncoder) (a : Action) : Option LFHardwareVideoEncoder :=
  (e.act a).map Prod.fst

/-- The frames passed on. -/
def frames (e : LFHardwareVideoEncoder) (a : Action) : List LFFrame :=
  ((e.act a).map Prod.snd).getD []

/-- The parameter sets that come with a key frame. -/
def offered : Action → Option (List UInt8 × List UInt8)
  | .callback c => (accepted c).bind fun (sample, keyframe) =>
      if keyframe then sample.parameterSets else none
  | _ => none

/-- The encoder's parameter sets are those offered first. -/
def Holds (e : LFHardwareVideoEncoder) (sets : Option (List UInt8 × List UInt8)) : Prop :=
  e.sps = sets.map Prod.fst ∧ e.pps = sets.map Prod.snd

variable {e e' : LFHardwareVideoEncoder} {sets : Option (List UInt8 × List UInt8)}

theorem holds_resetCompressionSession (created : Bool) :
    (e.resetCompressionSession created).Holds sets ↔ e.Holds sets := by
  cases created <;> rfl

/-- Only a callback changes the parameter sets or passes on frames. -/
theorem act_quiet {a : Action} {fs : List LFFrame} (hc : ∀ c, a ≠ .callback c)
    (ha : e.act a = some (e', fs)) : (e'.Holds sets ↔ e.Holds sets) ∧ fs = [] := by
  cases a with
  | callback c => exact absurd rfl (hc c)
  | setVideoBitRate videoBitRate =>
    obtain ⟨rfl, rfl⟩ := Prod.mk.inj (Option.some.inj ha)
    refine ⟨?_, rfl⟩
    unfold LFHardwareVideoEncoder.setVideoBitRate
    split <;> exact Iff.rfl
  | encodeVideoData noErr created =>
    obtain ⟨rfl, rfl⟩ := Prod.mk.inj (Option.some.inj ha)
    refine ⟨?_, rfl⟩
    unfold LFHardwareVideoEncoder.encodeVideoData
    split
    · exact Iff.rfl
    · cases noErr with
      | false => exact holds_resetCompressionSession created
      | true => exact Iff.rfl
  | willEnterBackground =>
    obtain ⟨rfl, rfl⟩ := Prod.mk.inj (Option.some.inj ha)
    exact ⟨Iff.rfl, rfl⟩
  | willEnterForeground created =>
    obtain ⟨rfl, rfl⟩ := Prod.mk.inj (Option.some.inj ha)
    exact ⟨holds_resetCompressionSession created, rfl⟩

theorem Holds.quiet {a : Action} {fs : List LFFrame} (h : e.Holds sets)
    (hc : ∀ c, a ≠ .callback c) (ho : offered a = none) (ha : e.act a = some (e', fs)) :
    e'.Holds (sets.or (offered a)) ∧
      ∀ f ∈ fs, f.kind = .video f.isKeyFrame ((sets.or (offered a)).map Prod.fst)
        ((sets.or (offered a)).map Prod.snd) := by
  obtain ⟨hsame, rfl⟩ := @act_quiet _ _ sets _ _ hc ha
  rw [ho, Option.or_none]
  exact ⟨hsame.mpr h, by simp⟩

theorem Holds.keepParameterSets {sample : SampleBuffer} {keyframe : Bool} (h : e.Holds sets) :
    (e.keepParameterSets sample keyframe).Holds
      (sets.or (if keyframe then sample.parameterSets else none)) := by
  obtain ⟨hsps, hpps⟩ := h
  unfold LFHardwareVideoEncoder.keepParameterSets
  cases sets with
  | some sets =>
    have hold : ¬ (keyframe = true ∧ e.sps.isNone = true) := by simp [hsps]
    rw [if_neg hold]
    exact ⟨hsps, hpps⟩
  | none =>
    have hnone : e.sps.isNone = true := by simp [hsps]
    cases keyframe with
    | false => simpa [Holds] using ⟨hsps, hpps⟩
    | true =>
      cases hsets : sample.parameterSets with
      | none => simpa [hnone, hsets, Holds] using ⟨hsps, hpps⟩
      | some sets => simp [hnone, Holds]

theorem Holds.act {a : Action} {fs : List LFFrame} (h : e.Holds sets)
    (ha : e.act a = some (e', fs)) :
    e'.Holds (sets.or (offered a)) ∧
      ∀ f ∈ fs, f.kind = .video f.isKeyFrame ((sets.or (offered a)).map Prod.fst)
        ((sets.or (offered a)).map Prod.snd) := by
  cases a with
  | callback c =>
    simp only [LFHardwareVideoEncoder.act, compressionOutput] at ha
    cases hc : accepted c with
    | none =>
      rw [hc] at ha
      obtain ⟨rfl, rfl⟩ : e = e' ∧ [] = fs := by simpa using ha
      simpa [offered, hc] using h
    | some p =>
      obtain ⟨sample, keyframe⟩ := p
      rw [hc] at ha
      have hkeep : (e.keepParameterSets sample keyframe).Holds
          (sets.or (offered (.callback c))) := by
        simpa [offered, hc] using h.keepParameterSets
      cases hd : sample.data with
      | none =>
        simp only [hd] at ha
        obtain ⟨rfl, rfl⟩ : e.keepParameterSets sample keyframe = e' ∧ [] = fs := by simpa using ha
        exact ⟨hkeep, by simp⟩
      | some data =>
        obtain ⟨bytes, totalLength⟩ := data
        simp only [hd] at ha
        obtain ⟨units, -, ho⟩ := Option.map_eq_some_iff.mp ha
        obtain ⟨rfl, rfl⟩ := Prod.mk.inj ho
        refine ⟨hkeep, ?_⟩
        intro f hf
        obtain ⟨unit, -, rfl⟩ := List.mem_map.mp hf
        rw [← hkeep.1, ← hkeep.2]
        rfl
  | setVideoBitRate videoBitRate => exact h.quiet (by simp) rfl ha
  | encodeVideoData noErr created => exact h.quiet (by simp) rfl ha
  | willEnterBackground => exact h.quiet (by simp) rfl ha
  | willEnterForeground created => exact h.quiet (by simp) rfl ha

theorem head?_offered (t : List Action) (a : Action) :
    ((t ++ [a]).filterMap offered).head? = (t.filterMap offered).head?.or (offered a) := by
  cases ho : offered a <;> simp [ho]

theorem holds_run {configuration : Mux.LFLiveVideoConfiguration} {created : Bool}
    {t : List Action} (h : Runs.run step (init configuration created) t = some e) :
    e.Holds (t.filterMap offered).head? := by
  refine Runs.run_induction (P := fun t e => e.Holds (t.filterMap offered).head?) ?_ ?_ h
  · exact (holds_resetCompressionSession created).mpr ⟨rfl, rfl⟩
  · intro t e a e' _ ih hs
    obtain ⟨⟨e₁, fs⟩, ha, rfl⟩ := Option.map_eq_some_iff.mp hs
    have hnext := (ih.act ha).1
    rw [head?_offered]
    exact hnext

/-- At every point of every run, through resets and the background, the frames
carry the parameter sets that the first key frame brought, and none before it. -/
theorem first_parameter_sets {configuration : Mux.LFLiveVideoConfiguration} {created : Bool}
    {t : List Action} {a : Action}
    (h : Runs.run step (init configuration created) t = some e) :
    ∀ f ∈ e.frames a, f.kind = .video f.isKeyFrame
      (((t ++ [a]).filterMap offered).head?.map Prod.fst)
      (((t ++ [a]).filterMap offered).head?.map Prod.snd) := by
  intro f hf
  cases ha : e.act a with
  | none => simp [frames, ha] at hf
  | some o =>
    obtain ⟨e', fs⟩ := o
    rw [head?_offered]
    exact ((holds_run h).act ha).2 f (by simpa [frames, ha] using hf)

/-- A second key frame, with other parameter sets, after a stay in the background. -/
def otherSets : Callback where
  timeStamp := 80
  sampleBuffer := some {
    parameterSets := some ([0x67, 0x64, 0x00, 0x28], [0x68, 0xee])
    data := some ([0, 0, 0, 1, 0x65], 5) }

def backAgain : List Action := [.callback twoUnits, .willEnterBackground, .willEnterForeground true]

theorem first_parameter_sets_otherSets :
    ∃ e : LFHardwareVideoEncoder, Runs.run step (init {} true) backAgain = some e ∧
      ∀ f ∈ e.frames (.callback otherSets),
        f.kind = .video f.isKeyFrame (some [0x67, 0x4d, 0x00, 0x1f]) (some [0x68]) :=
  ⟨_, rfl, first_parameter_sets (t := backAgain) rfl⟩

end LFHardwareVideoEncoder

end WaxxyLive.LiveKit
