import WaxxyLive.LiveKit.StreamingBuffer

/-!
# The audio encoder

`LFHardwareAudioEncoder` cuts the samples it is given into buffers of 1024
frames, keeps what is left for the next call, and makes one audio frame of each
buffer that is converted. The frames carry the two bytes in which the
configuration tells a decoder its sample rate and its channels.
-/

namespace WaxxyLive.LiveKit

/-! ## The configuration -/

/-- The sample rate is the raw value of its enumeration. -/
structure LFLiveAudioConfiguration where
  numberOfChannels : Nat := 0
  audioSampleRate : Nat := 0
  asc : List UInt8

namespace LFLiveAudioConfiguration

def sampleRateIndex (frequencyInHz : Nat) : Nat :=
  match frequencyInHz with
  | 96000 => 0
  | 88200 => 1
  | 64000 => 2
  | 48000 => 3
  | 44100 => 4
  | 32000 => 5
  | 24000 => 6
  | 22050 => 7
  | 16000 => 8
  | 12000 => 9
  | 11025 => 10
  | 8000 => 11
  | 7350 => 12
  | _ => 15

/-- The two bytes of `asc`. -/
def specificConfig (audioSampleRate numberOfChannels : Nat) : List UInt8 :=
  let i := sampleRateIndex audioSampleRate
  [UInt8.ofNat (0x10 ||| ((i >>> 1) &&& 0x7)),
    UInt8.ofNat (((i &&& 0x1) <<< 7) ||| ((numberOfChannels &&& 0xF) <<< 3))]

def setAudioSampleRate (c : LFLiveAudioConfiguration) (audioSampleRate : Nat) :
    LFLiveAudioConfiguration :=
  { c with audioSampleRate, asc := specificConfig audioSampleRate c.numberOfChannels }

def setNumberOfChannels (c : LFLiveAudioConfiguration) (numberOfChannels : Nat) :
    LFLiveAudioConfiguration :=
  { c with numberOfChannels, asc := specificConfig c.audioSampleRate numberOfChannels }

def bufferLength (c : LFLiveAudioConfiguration) : Nat := 1024 * 2 * c.numberOfChannels

/-- The setters that change `asc`. -/
inductive Setter where
  | audioSampleRate (audioSampleRate : Nat)
  | numberOfChannels (numberOfChannels : Nat)

def set (c : LFLiveAudioConfiguration) : Setter → LFLiveAudioConfiguration
  | .audioSampleRate audioSampleRate => c.setAudioSampleRate audioSampleRate
  | .numberOfChannels numberOfChannels => c.setNumberOfChannels numberOfChannels

/-! ## What a decoder reads -/

/-- The sample rates that an index stands for. -/
def frequencies : List Nat :=
  [96000, 88200, 64000, 48000, 44100, 32000, 24000, 22050, 16000, 12000, 11025, 8000, 7350]

/-- The number of channels that a `channelConfiguration` stands for: eight for
seven, and no number for zero, whose channels are listed elsewhere, and for the
reserved ones. -/
def channelCount (channelConfiguration : Nat) : Option Nat :=
  if channelConfiguration = 0 then none
  else if channelConfiguration ≤ 6 then some channelConfiguration
  else if channelConfiguration = 7 then some 8
  else none

/-- The object type, the sample rate and the number of channels: five, four and
four bits, and three that are not looked at. -/
def readSpecificConfig : List UInt8 → Option (Nat × Nat × Nat)
  | [b₀, b₁] => do
    let bits := b₀.toNat * 256 + b₁.toNat
    let rate ← frequencies[bits / 128 % 16]?
    let channels ← channelCount (bits / 8 % 16)
    return (bits / 2048, rate, channels)
  | _ => none

/-- Four bits of a number of channels stand for that number from one to six only. -/
theorem channelCount_mod_iff (channels : Nat) :
    channelCount (channels % 16) = some channels ↔ 1 ≤ channels ∧ channels ≤ 6 := by
  unfold channelCount
  split_ifs with hzero hsix hseven
  · simp only [false_iff]
    omega
  · rw [Option.some.injEq]
    omega
  · rw [Option.some.injEq]
    omega
  · simp only [false_iff]
    omega

theorem sampleRateIndex_eq (rate : Nat) :
    rate ∈ frequencies ∧ frequencies[sampleRateIndex rate]? = some rate ∨
      rate ∉ frequencies ∧ sampleRateIndex rate = 15 := by
  unfold sampleRateIndex
  split
  all_goals first
    | exact Or.inl (by decide)
    | exact Or.inr ⟨by simp_all [frequencies], rfl⟩

theorem sampleRateIndex_lt (rate : Nat) : sampleRateIndex rate < 16 := by
  unfold sampleRateIndex
  split <;> decide

theorem readSpecificConfig_specificConfig (rate channels : Nat) :
    readSpecificConfig (specificConfig rate channels) =
      frequencies[sampleRateIndex rate]?.bind fun rate =>
        (channelCount (channels % 16)).map fun channels => (2, rate, channels) := by
  have hchannels : channels &&& 0xF = channels % 16 := Nat.and_two_pow_sub_one_eq_mod channels 4
  have hall : ∀ i < 16, ∀ n < 16,
      let b₀ := (UInt8.ofNat (0x10 ||| ((i >>> 1) &&& 0x7))).toNat
      let b₁ := (UInt8.ofNat (((i &&& 0x1) <<< 7) ||| (n <<< 3))).toNat
      (b₀ * 256 + b₁) / 128 % 16 = i ∧ (b₀ * 256 + b₁) / 2048 = 2 ∧
        (b₀ * 256 + b₁) / 8 % 16 = n := by
    decide
  obtain ⟨hindex, htype, hn⟩ := hall (sampleRateIndex rate) (sampleRateIndex_lt rate)
    (channels % 16) (Nat.mod_lt _ (by decide))
  simp only [readSpecificConfig, specificConfig, hchannels, hindex, htype, hn]
  cases frequencies[sampleRateIndex rate]? <;> cases channelCount (channels % 16) <;> rfl

theorem asc_set (c : LFLiveAudioConfiguration) (a : Setter) :
    (c.set a).asc = specificConfig (c.set a).audioSampleRate (c.set a).numberOfChannels := by
  cases a <;> rfl

/-- Whatever setters were called last, a decoder reads the sample rate and the
channels of the configuration if and only if the rate is in its table and there
are one to six channels. -/
theorem asc_read_iff (c : LFLiveAudioConfiguration) (l : List Setter) (a : Setter) :
    let c' := (l ++ [a]).foldl set c
    readSpecificConfig c'.asc = some (2, c'.audioSampleRate, c'.numberOfChannels) ↔
      c'.audioSampleRate ∈ frequencies ∧ 1 ≤ c'.numberOfChannels ∧ c'.numberOfChannels ≤ 6 := by
  rw [List.foldl_append, List.foldl_cons, List.foldl_nil]
  generalize l.foldl set c = c
  show readSpecificConfig (c.set a).asc = _ ↔ _
  rw [asc_set, readSpecificConfig_specificConfig]
  generalize (c.set a).audioSampleRate = rate, (c.set a).numberOfChannels = channels
  rcases sampleRateIndex_eq rate with ⟨hmem, hrate⟩ | ⟨hmem, hrate⟩
  · simp [hrate, hmem, channelCount_mod_iff]
  · have hnone : frequencies[15]? = none := rfl
    simp [hrate, hmem, hnone]

end LFLiveAudioConfiguration

/-! ## The encoder -/

/-- `leftBuf` holds the `leftLength` bytes in use of a block of `bufferLength`. -/
structure LFHardwareAudioEncoder where
  configuration : LFLiveAudioConfiguration
  leftBuf : List UInt8 := []

namespace LFHardwareAudioEncoder

/-- The buffers that the loop of `encodeAudioData:` walks over. -/
def encodeBuffers (bufferLength : Nat) : Nat → List UInt8 → List (List UInt8)
  | 0, _ => []
  | encodeCount + 1, p =>
    p.take bufferLength :: encodeBuffers bufferLength encodeCount (p.drop bufferLength)

/-- The buffers of a call of `encodeAudioData:timeStamp:`, and what it leaves.
It is `none` where the length of a buffer is zero and divides the total. -/
def cut (bufferLength : Nat) (leftBuf audioData : List UInt8) :
    Option (List (List UInt8) × List UInt8) :=
  let totalBuf := leftBuf ++ audioData
  let totalSize := totalBuf.length
  if bufferLength = 0 then none
  else if bufferLength ≤ totalSize then
    some (encodeBuffers bufferLength (totalSize / bufferLength) totalBuf,
      totalBuf.drop (totalSize - totalSize % bufferLength))
  else some ([], totalBuf)

/-- A call of `encodeAudioData:timeStamp:`: `converted` is what the converter
makes of each buffer, and `object` the identity of the first frame. -/
structure Call where
  audioData : List UInt8
  timeStamp : UInt64
  object : Nat := 0
  converted : Nat → Option (List UInt8)

/-- `encodeBuffer:timeStamp:` -/
def encodeBuffer (e : LFHardwareAudioEncoder) (c : Call) (index : Nat) : Option LFFrame :=
  (c.converted index).map fun data =>
    { object := c.object + index
      timestamp := c.timeStamp
      data
      kind := .audio (some (e.configuration.asc.take 2)) }

def encodeAudioData (e : LFHardwareAudioEncoder) (c : Call) :
    Option (LFHardwareAudioEncoder × List (List UInt8) × List LFFrame) :=
  (cut e.configuration.bufferLength e.leftBuf c.audioData).map fun (buffers, leftBuf) =>
    ({ e with leftBuf }, buffers, (List.range buffers.length).filterMap (e.encodeBuffer c))

def step (e : LFHardwareAudioEncoder) (c : Call) : Option LFHardwareAudioEncoder :=
  (e.encodeAudioData c).map Prod.fst

/-- The buffers handed to the converter. -/
def buffers (e : LFHardwareAudioEncoder) (c : Call) : List (List UInt8) :=
  ((e.encodeAudioData c).map fun o => o.2.1).getD []

/-! ## What is cut out of the samples -/

theorem flatten_encodeBuffers (n k : Nat) (p : List UInt8) :
    (encodeBuffers n k p).flatten = p.take (k * n) := by
  induction k generalizing p with
  | zero => simp [encodeBuffers]
  | succ k ih =>
    rw [encodeBuffers, List.flatten_cons, ih, Nat.succ_mul, Nat.add_comm, List.take_add]

theorem length_of_mem_encodeBuffers {n k : Nat} {p b : List UInt8} (h : k * n ≤ p.length)
    (hb : b ∈ encodeBuffers n k p) : b.length = n := by
  induction k generalizing p with
  | zero => simp [encodeBuffers] at hb
  | succ k ih =>
    rw [Nat.succ_mul] at h
    rcases List.mem_cons.mp hb with rfl | hb
    · exact List.length_take_of_le (by omega)
    · apply ih _ hb
      rw [List.length_drop]
      omega

/-- A call cuts full buffers off what it has, and leaves less than a buffer. -/
theorem cut_spec {n : Nat} {leftBuf audioData left : List UInt8} {bs : List (List UInt8)}
    (h : cut n leftBuf audioData = some (bs, left)) :
    bs.flatten ++ left = leftBuf ++ audioData ∧ (∀ b ∈ bs, b.length = n) ∧ left.length < n := by
  unfold cut at h
  dsimp only at h
  generalize leftBuf ++ audioData = total at h ⊢
  by_cases hzero : n = 0
  · simp [hzero] at h
  · have hpos : 0 < n := Nat.pos_of_ne_zero hzero
    rw [if_neg hzero] at h
    by_cases hfull : n ≤ total.length
    · rw [if_pos hfull] at h
      obtain ⟨rfl, rfl⟩ := Prod.mk.inj (Option.some.inj h)
      have hcount : total.length / n * n = total.length - total.length % n := by
        have hdiv := Nat.div_add_mod' total.length n
        omega
      have hmod : total.length % n < n := Nat.mod_lt _ hpos
      refine ⟨?_, ?_, ?_⟩
      · rw [flatten_encodeBuffers, hcount, List.take_append_drop]
      · intro b hb
        exact length_of_mem_encodeBuffers (Nat.div_mul_le_self _ _) hb
      · rw [List.length_drop]
        omega
    · rw [if_neg hfull] at h
      obtain ⟨rfl, rfl⟩ := Prod.mk.inj (Option.some.inj h)
      exact ⟨by simp, by simp, by omega⟩

variable {e e' : LFHardwareAudioEncoder}

theorem step_spec {c : Call} (h : e.step c = some e') :
    e'.configuration = e.configuration ∧
      (e.buffers c).flatten ++ e'.leftBuf = e.leftBuf ++ c.audioData ∧
      (∀ b ∈ e.buffers c, b.length = e.configuration.bufferLength) ∧
      e'.leftBuf.length < e.configuration.bufferLength := by
  obtain ⟨o, ho, rfl⟩ := Option.map_eq_some_iff.mp h
  obtain ⟨⟨bs, left⟩, hcut, rfl⟩ := Option.map_eq_some_iff.mp ho
  have hbuffers : e.buffers c = bs := by
    simp [buffers, encodeAudioData, hcut]
  rw [hbuffers]
  exact ⟨rfl, cut_spec hcut⟩

/-- Over any run of calls, the samples given to the encoder are, in order and
without a gap, those of the buffers handed to the converter and then those that
wait; every buffer is full, and what waits fits in the block kept for it. -/
theorem samples_conserved {t : List Call} (hleft : e.leftBuf.length < e.configuration.bufferLength)
    (h : Runs.run step e t = some e') :
    (Runs.observed step buffers e t).flatten ++ e'.leftBuf =
        e.leftBuf ++ t.flatMap Call.audioData ∧
      (∀ b ∈ Runs.observed step buffers e t, b.length = e.configuration.bufferLength) ∧
      e'.leftBuf.length < e.configuration.bufferLength := by
  have hrun : e'.configuration = e.configuration ∧
      (Runs.observed step buffers e t).flatten ++ e'.leftBuf =
        e.leftBuf ++ t.flatMap Call.audioData ∧
      (∀ b ∈ Runs.observed step buffers e t, b.length = e.configuration.bufferLength) ∧
      e'.leftBuf.length < e.configuration.bufferLength := by
    refine Runs.run_induction (P := fun t e' => e'.configuration = e.configuration ∧
      (Runs.observed step buffers e t).flatten ++ e'.leftBuf =
        e.leftBuf ++ t.flatMap Call.audioData ∧
      (∀ b ∈ Runs.observed step buffers e t, b.length = e.configuration.bufferLength) ∧
      e'.leftBuf.length < e.configuration.bufferLength) ?_ ?_ h
    · exact ⟨rfl, by simp [Runs.observed], by simp [Runs.observed], hleft⟩
    · intro t e₁ c e₂ hrun hbefore hs
      obtain ⟨hconf, hflat, hfull, hlt⟩ := hbefore
      obtain ⟨hconf', hflat', hfull', hlt'⟩ := step_spec hs
      rw [hconf] at hconf' hfull' hlt'
      rw [Runs.observed_concat hrun]
      refine ⟨hconf', ?_, ?_, hlt'⟩
      · rw [List.flatten_append, List.append_assoc, hflat', ← List.append_assoc, hflat]
        simp
      · intro b hb
        rcases List.mem_append.mp hb with hb | hb
        · exact hfull b hb
        · exact hfull' b hb
  exact hrun.2

/-- An encoder for one channel. -/
def mono : LFHardwareAudioEncoder :=
  { configuration := ({ asc := [0, 0] } : LFLiveAudioConfiguration).setNumberOfChannels 1 }

/-- Two calls: the first waits, the second fills a buffer and leaves one byte. -/
def monoCalls : List Call :=
  [⟨[1, 2], 0, 0, fun _ => none⟩, ⟨List.replicate 2047 3, 20, 0, fun _ => some []⟩]

theorem samples_conserved_mono :
    ∃ e' : LFHardwareAudioEncoder, Runs.run step mono monoCalls = some e' ∧
      ((Runs.observed step buffers mono monoCalls).flatten ++ e'.leftBuf =
          mono.leftBuf ++ monoCalls.flatMap Call.audioData ∧
        (∀ b ∈ Runs.observed step buffers mono monoCalls,
          b.length = mono.configuration.bufferLength) ∧
        e'.leftBuf.length < mono.configuration.bufferLength) ∧
      (Runs.observed step buffers mono monoCalls).length = 1 := by
  have hleft : mono.leftBuf.length < mono.configuration.bufferLength := by decide
  obtain ⟨e', hrun⟩ : ∃ e', Runs.run step mono monoCalls = some e' :=
    Option.isSome_iff_exists.mp (by decide +kernel)
  exact ⟨e', hrun, samples_conserved hleft hrun, by decide +kernel⟩

end LFHardwareAudioEncoder

end WaxxyLive.LiveKit
