import WaxxyLive.Lib.Cascade
import Mathlib.Algebra.Order.Ring.Rat
import Mathlib.Tactic.NormNum

/-!
# The configurations handed to a session

`setupLiveSession` maps the requested audio quality through two cascades and
assigns the requested video rates on top of the preset `medium3`, through
setters that ignore a bound on the wrong side of the rate they find.
`BoundedRate.is_setAll_iff` says which rates arrive unchanged,
`chosen_bitRate_iff` and `chosen_sampleRate_iff` which requests are rounded up.
-/

namespace WaxxyLive.Mux

open Cascade

/-! ## Video -/

/-- `MuxLiveVideoConfiguration` -/
structure MuxLiveVideoConfiguration where
  frameRate : Int := 30
  maxFrameRate : Int := 30
  minFrameRate : Int := 15
  bitRate : Int := 800000
  maxBitRate : Int := 960000
  minBitRate : Int := 600000
  dimensions : Option (Rat × Rat) := none
  maxKeyFrameInterval : Option Int := none
  deriving DecidableEq, Repr

/-- A rate of `LFLiveVideoConfiguration` with its two bounds. -/
structure BoundedRate where
  rate : Nat := 0
  max : Nat := 0
  min : Nat := 0
  deriving DecidableEq, Repr

namespace BoundedRate

def setRate (r : BoundedRate) (rate : Nat) : BoundedRate := { r with rate }

/-- A maximum not above the rate is ignored. -/
def setMax (r : BoundedRate) (max : Nat) : BoundedRate :=
  if max ≤ r.rate then r else { r with max }

/-- A minimum not below the rate is ignored. -/
def setMin (r : BoundedRate) (min : Nat) : BoundedRate :=
  if min ≥ r.rate then r else { r with min }

end BoundedRate

structure LFLiveVideoConfiguration where
  videoFrameRate : BoundedRate := {}
  videoBitRate : BoundedRate := {}
  videoSize : Rat × Rat := (0, 0)
  videoMaxKeyframeInterval : Nat := 0
  deriving DecidableEq, Repr

namespace LFLiveVideoConfiguration

def setVideoFrameRate (c : LFLiveVideoConfiguration) (v : Nat) : LFLiveVideoConfiguration :=
  { c with videoFrameRate := c.videoFrameRate.setRate v }

def setVideoMaxFrameRate (c : LFLiveVideoConfiguration) (v : Nat) : LFLiveVideoConfiguration :=
  { c with videoFrameRate := c.videoFrameRate.setMax v }

def setVideoMinFrameRate (c : LFLiveVideoConfiguration) (v : Nat) : LFLiveVideoConfiguration :=
  { c with videoFrameRate := c.videoFrameRate.setMin v }

def setVideoBitRate (c : LFLiveVideoConfiguration) (v : Nat) : LFLiveVideoConfiguration :=
  { c with videoBitRate := c.videoBitRate.setRate v }

def setVideoMaxBitRate (c : LFLiveVideoConfiguration) (v : Nat) : LFLiveVideoConfiguration :=
  { c with videoBitRate := c.videoBitRate.setMax v }

def setVideoMinBitRate (c : LFLiveVideoConfiguration) (v : Nat) : LFLiveVideoConfiguration :=
  { c with videoBitRate := c.videoBitRate.setMin v }

/-- `defaultConfigurationForQuality:outputImageOrientation:` for `LFLiveVideoQuality_Medium3`. -/
def medium3 (landscape : Bool) : LFLiveVideoConfiguration :=
  let c : LFLiveVideoConfiguration := {}
  let c := c.setVideoFrameRate 30
  let c := c.setVideoMaxFrameRate 30
  let c := c.setVideoMinFrameRate 15
  let c := c.setVideoBitRate (1000 * 1000)
  let c := c.setVideoMaxBitRate (1200 * 1000)
  let c := c.setVideoMinBitRate (500 * 1000)
  { c with
    videoMaxKeyframeInterval := c.videoFrameRate.rate * 2
    videoSize := if landscape then (960, 540) else (540, 960) }

end LFLiveVideoConfiguration

/-- `UInt(_:)`, which traps on a negative integer. -/
def uint (n : Int) : Option Nat := if 0 ≤ n then some n.toNat else none

/-- The video configuration `setupLiveSession` hands to the session; `none` on a trap. -/
def setupVideoConfiguration (landscape : Bool) (v : MuxLiveVideoConfiguration) :
    Option LFLiveVideoConfiguration := do
  let c := LFLiveVideoConfiguration.medium3 landscape
  let c := { c with videoSize := v.dimensions.getD c.videoSize }
  let c := c.setVideoFrameRate (← uint v.frameRate)
  let c := c.setVideoMaxFrameRate (← uint v.maxFrameRate)
  let c := c.setVideoMinFrameRate (← uint v.minFrameRate)
  let c := c.setVideoBitRate (← uint v.bitRate)
  let c := c.setVideoMaxBitRate (← uint v.maxBitRate)
  let c := c.setVideoMinBitRate (← uint v.minBitRate)
  match v.maxKeyFrameInterval with
  | some maxKeyFrameInterval =>
    return { c with videoMaxKeyframeInterval := ← uint maxKeyFrameInterval }
  | none => return c

/-- The preset's maximal frame rate is not above its frame rate and was ignored. -/
theorem medium3_rates (landscape : Bool) :
    (LFLiveVideoConfiguration.medium3 landscape).videoFrameRate = ⟨30, 0, 15⟩ ∧
      (LFLiveVideoConfiguration.medium3 landscape).videoBitRate = ⟨1000000, 1200000, 500000⟩ := by
  cases landscape <;> decide

theorem BoundedRate.setMax_eq (r : BoundedRate) (max : Nat) :
    r.setMax max = { r with max := if r.rate < max then max else r.max } := by
  unfold setMax
  by_cases h : r.rate < max
  · simp [h]
  · simp [h, Nat.le_of_not_lt h]

theorem BoundedRate.setMin_eq (r : BoundedRate) (min : Nat) :
    r.setMin min = { r with min := if min < r.rate then min else r.min } := by
  unfold setMin
  by_cases h : min < r.rate
  · simp [h]
  · simp [h, Nat.le_of_not_lt h]

/-- A rate and its bounds set in the order `setupLiveSession` sets them. -/
def BoundedRate.setAll (r : BoundedRate) (rate max min : Nat) : BoundedRate :=
  ((r.setRate rate).setMax max).setMin min

theorem BoundedRate.setAll_eq (r : BoundedRate) (rate max min : Nat) :
    r.setAll rate max min =
      ⟨rate, if rate < max then max else r.max, if min < rate then min else r.min⟩ := by
  rw [setAll, setMin_eq, setMax_eq]
  rfl

/-- A rate with its bounds is the requested one. -/
structure BoundedRate.Is (r : BoundedRate) (rate max min : Int) : Prop where
  rate : (r.rate : Int) = rate
  max : (r.max : Int) = max
  min : (r.min : Int) = min

theorem BoundedRate.is_setAll_iff (r : BoundedRate) {rate max min : Int} (hmin : 0 ≤ min)
    (hminRate : min ≤ rate) (hmaxRate : rate ≤ max) :
    (r.setAll rate.toNat max.toNat min.toNat).Is rate max min ↔
      (rate < max ∨ max = r.max) ∧ (min < rate ∨ min = r.min) := by
  have hlt : rate.toNat < max.toNat ↔ rate < max := by omega
  have hlt' : min.toNat < rate.toNat ↔ min < rate := by omega
  rw [BoundedRate.setAll_eq]
  constructor
  · rintro ⟨-, hmax, hmin'⟩
    simp only [hlt, hlt'] at hmax hmin'
    split_ifs at hmax hmin' <;> omega
  · rintro ⟨hmax, hmin'⟩
    constructor
    · exact Int.toNat_of_nonneg (hmin.trans hminRate)
    · simp only [hlt]
      split_ifs <;> omega
    · simp only [hlt']
      split_ifs <;> omega

/-- Requests whose bounds are in order. -/
structure MuxLiveVideoConfiguration.Ordered (v : MuxLiveVideoConfiguration) : Prop where
  minFrameRate : 0 ≤ v.minFrameRate
  frameRate : v.minFrameRate ≤ v.frameRate ∧ v.frameRate ≤ v.maxFrameRate
  minBitRate : 0 ≤ v.minBitRate
  bitRate : v.minBitRate ≤ v.bitRate ∧ v.bitRate ≤ v.maxBitRate

theorem uint_eq_some {n : Int} (h : 0 ≤ n) : uint n = some n.toNat := if_pos h

/-- A request whose bounds are in order traps only on a negative key frame interval. -/
theorem setupVideoConfiguration_returns_iff {landscape : Bool} {v : MuxLiveVideoConfiguration}
    (hv : v.Ordered) : (∃ c, setupVideoConfiguration landscape v = some c) ↔
      ∀ interval, v.maxKeyFrameInterval = some interval → 0 ≤ interval := by
  obtain ⟨hminFrame, ⟨hframe₁, hframe₂⟩, hminBit, hbit₁, hbit₂⟩ := hv
  have hframe := hminFrame.trans hframe₁
  have hbit := hminBit.trans hbit₁
  simp only [setupVideoConfiguration, Option.bind_eq_bind, uint_eq_some hframe,
    uint_eq_some (hframe.trans hframe₂), uint_eq_some hminFrame, uint_eq_some hbit,
    uint_eq_some (hbit.trans hbit₂), uint_eq_some hminBit, Option.bind_some]
  cases v.maxKeyFrameInterval with
  | none => simp
  | some interval => by_cases hk : 0 ≤ interval <;> simp [uint, hk]

/-- The session's configuration has the requested rates and bounds, in order. -/
structure AsRequested (v : MuxLiveVideoConfiguration) (c : LFLiveVideoConfiguration) : Prop where
  frameRate : c.videoFrameRate.Is v.frameRate v.maxFrameRate v.minFrameRate
  bitRate : c.videoBitRate.Is v.bitRate v.maxBitRate v.minBitRate
  ordered : (c.videoFrameRate.min ≤ c.videoFrameRate.rate ∧
    c.videoFrameRate.rate ≤ c.videoFrameRate.max) ∧
      c.videoBitRate.min ≤ c.videoBitRate.rate ∧ c.videoBitRate.rate ≤ c.videoBitRate.max

/-- The rates of the configuration handed over are those of `medium3` with the requests set. -/
theorem setupVideoConfiguration_rates {landscape : Bool} {v : MuxLiveVideoConfiguration}
    {c : LFLiveVideoConfiguration} (h : setupVideoConfiguration landscape v = some c) :
    c.videoFrameRate = (BoundedRate.mk 30 0 15).setAll v.frameRate.toNat v.maxFrameRate.toNat
        v.minFrameRate.toNat ∧
      c.videoBitRate = (BoundedRate.mk 1000000 1200000 500000).setAll v.bitRate.toNat
        v.maxBitRate.toNat v.minBitRate.toNat := by
  have huint : ∀ {n : Int} {k : Nat}, uint n = some k → k = n.toNat := by
    intro n k hk
    unfold uint at hk
    split_ifs at hk
    exact (Option.some.inj hk).symm
  rcases medium3_rates landscape with ⟨hframe, hbit⟩
  simp only [setupVideoConfiguration, Option.bind_eq_bind, Option.bind_eq_some_iff] at h
  rcases h with ⟨f, hf, fmax, hfmax, fmin, hfmin, b, hb, bmax, hbmax, bmin, hbmin, h⟩
  rw [← huint hf, ← huint hfmax, ← huint hfmin, ← huint hb, ← huint hbmax, ← huint hbmin, ← hframe,
    ← hbit]
  cases hinterval : v.maxKeyFrameInterval with
  | none =>
    rw [hinterval] at h
    obtain rfl := Option.some.inj h
    exact ⟨rfl, rfl⟩
  | some interval =>
    rw [hinterval] at h
    rcases Option.bind_eq_some_iff.mp h with ⟨k, -, h⟩
    obtain rfl := Option.some.inj h
    exact ⟨rfl, rfl⟩

/-- **Video configuration.** A request whose bounds are in order arrives unchanged exactly when each
bound is strictly on its side of the rate, or what the preset has anyway. -/
theorem configuration_as_requested_iff {landscape : Bool} {v : MuxLiveVideoConfiguration}
    {c : LFLiveVideoConfiguration} (hv : v.Ordered)
    (h : setupVideoConfiguration landscape v = some c) :
    AsRequested v c ↔
      v.frameRate < v.maxFrameRate ∧ (v.minFrameRate < v.frameRate ∨ v.minFrameRate = 15) ∧
        (v.bitRate < v.maxBitRate ∨ v.maxBitRate = 1200000) ∧
        (v.minBitRate < v.bitRate ∨ v.minBitRate = 500000) := by
  rcases setupVideoConfiguration_rates h with ⟨hframe, hbit⟩
  rcases hv with ⟨hminFrame, ⟨hframe₁, hframe₂⟩, hminBit, hbit₁, hbit₂⟩
  have hframeIs : c.videoFrameRate.Is v.frameRate v.maxFrameRate v.minFrameRate ↔
      (v.frameRate < v.maxFrameRate ∨ v.maxFrameRate = 0) ∧
        (v.minFrameRate < v.frameRate ∨ v.minFrameRate = 15) := by
    rw [hframe]
    exact BoundedRate.is_setAll_iff ⟨30, 0, 15⟩ hminFrame hframe₁ hframe₂
  have hbitIs : c.videoBitRate.Is v.bitRate v.maxBitRate v.minBitRate ↔
      (v.bitRate < v.maxBitRate ∨ v.maxBitRate = 1200000) ∧
        (v.minBitRate < v.bitRate ∨ v.minBitRate = 500000) := by
    rw [hbit]
    exact BoundedRate.is_setAll_iff ⟨1000000, 1200000, 500000⟩ hminBit hbit₁ hbit₂
  constructor
  · rintro ⟨hf, hb, -⟩
    have hf' := hframeIs.mp hf
    have hb' := hbitIs.mp hb
    omega
  · rintro ⟨hmax, hmin, hbmax, hbmin⟩
    have hf := hframeIs.mpr ⟨.inl hmax, hmin⟩
    have hb := hbitIs.mpr ⟨hbmax, hbmin⟩
    refine ⟨hf, hb, ?_⟩
    have hfrate := hf.rate
    have hfmax := hf.max
    have hfmin := hf.min
    have hbrate := hb.rate
    have hbmax := hb.max
    have hbmin := hb.min
    omega

/-- A request with bounds away from its rates. -/
def wideRequest : MuxLiveVideoConfiguration :=
  { frameRate := 24, maxFrameRate := 30, minFrameRate := 15 }

theorem wideRequest_as_requested :
    ∃ c, setupVideoConfiguration false wideRequest = some c ∧ AsRequested wideRequest c := by
  refine ⟨_, rfl, (configuration_as_requested_iff ?_
    (show setupVideoConfiguration false wideRequest = _ from rfl)).mpr (by decide)⟩
  constructor <;> decide

/-- The defaults ask for a maximum equal to the frame rate, which is dropped. -/
theorem default_not_as_requested :
    ∃ c, setupVideoConfiguration false {} = some c ∧ c.videoFrameRate = ⟨30, 0, 15⟩ ∧
      ¬ AsRequested {} c := by
  refine ⟨_, rfl, rfl, fun h => ?_⟩
  have hmax := h.frameRate.max
  revert hmax
  decide

/-! ## Audio -/

inductive LFLiveAudioBitRate where
  | kbps32
  | kbps64
  | kbps96
  | kbps128
  deriving DecidableEq, Repr

namespace LFLiveAudioBitRate

def rawValue : LFLiveAudioBitRate → Int
  | kbps32 => 32000
  | kbps64 => 64000
  | kbps96 => 96000
  | kbps128 => 128000

/-- `LFLiveAudioBitRate_Default` -/
def default : LFLiveAudioBitRate := kbps96

def all : List LFLiveAudioBitRate := [kbps32, kbps64, kbps96, kbps128]

end LFLiveAudioBitRate

inductive LFLiveAudioSampleRate where
  | hz16000
  | hz44100
  | hz48000
  deriving DecidableEq, Repr

namespace LFLiveAudioSampleRate

def rawValue : LFLiveAudioSampleRate → Rat
  | hz16000 => 16000
  | hz44100 => 44100
  | hz48000 => 48000

/-- `LFLiveAudioSampleRate_Default` -/
def default : LFLiveAudioSampleRate := hz44100

def all : List LFLiveAudioSampleRate := [hz16000, hz44100, hz48000]

end LFLiveAudioSampleRate

def lfLiveKitAudioBitRate (bitRate : Int) : LFLiveAudioBitRate :=
  if bitRate ≤ 32000 then .kbps32
  else if bitRate ≤ 64000 then .kbps64
  else if bitRate ≤ 96000 then .kbps96
  else if bitRate ≤ 128000 then .kbps128
  else .default

def lfLiveKitAudioSampleRate (sampleRate : Rat) : LFLiveAudioSampleRate :=
  if sampleRate ≤ 16000 then .hz16000
  else if sampleRate ≤ 44100 then .hz44100
  else if sampleRate ≤ 48000 then .hz48000
  else .default

/-- `MuxLiveAudioConfiguration` -/
structure MuxLiveAudioConfiguration where
  bitRate : Int := 96000
  sampleRate : Rat := 44100
  channelsCount : Option Int := none
  deriving DecidableEq, Repr

structure LFLiveAudioConfiguration where
  numberOfChannels : Nat
  audioBitrate : LFLiveAudioBitRate
  audioSampleRate : LFLiveAudioSampleRate
  deriving DecidableEq, Repr

/-- `LFLiveAudioConfiguration.default()`, which is `LFLiveAudioQuality_High`. -/
def LFLiveAudioConfiguration.defaultConfiguration : LFLiveAudioConfiguration :=
  ⟨2, .kbps128, .hz44100⟩

/-- The audio configuration `setupLiveSession` hands to the session; `none` on a trap. -/
def setupAudioConfiguration (a : MuxLiveAudioConfiguration) : Option LFLiveAudioConfiguration := do
  let c := LFLiveAudioConfiguration.defaultConfiguration
  let numberOfChannels ← match a.channelsCount with
    | some channelsCount => uint channelsCount
    | none => some c.numberOfChannels
  return { numberOfChannels
           audioBitrate := lfLiveKitAudioBitRate a.bitRate
           audioSampleRate := lfLiveKitAudioSampleRate a.sampleRate }

/-- The bit rates and the sample rates the session supports. -/
def bitRates : List Int := LFLiveAudioBitRate.all.map LFLiveAudioBitRate.rawValue
def sampleRates : List Rat := LFLiveAudioSampleRate.all.map LFLiveAudioSampleRate.rawValue

theorem lfLiveKitAudioBitRate_eq_cascade (b : Int) :
    (lfLiveKitAudioBitRate b).rawValue = cascade bitRates LFLiveAudioBitRate.default.rawValue b := by
  simp only [bitRates, LFLiveAudioBitRate.all, List.map_cons, List.map_nil, cascade_cons,
    LFLiveAudioBitRate.rawValue, lfLiveKitAudioBitRate]
  split_ifs <;> rfl

theorem lfLiveKitAudioSampleRate_eq_cascade (s : Rat) :
    (lfLiveKitAudioSampleRate s).rawValue =
      cascade sampleRates LFLiveAudioSampleRate.default.rawValue s := by
  simp only [sampleRates, LFLiveAudioSampleRate.all, List.map_cons, List.map_nil, cascade_cons,
    LFLiveAudioSampleRate.rawValue, lfLiveKitAudioSampleRate]
  split_ifs <;> rfl

theorem bitRates_ascending : bitRates.Pairwise (· < ·) := by decide

theorem sampleRates_ascending : sampleRates.Pairwise (· < ·) := by decide +kernel

theorem exists_bitRate_iff (b : Int) : (∃ r ∈ bitRates, b ≤ r) ↔ b ≤ 128000 := by
  simp only [bitRates, LFLiveAudioBitRate.all, LFLiveAudioBitRate.rawValue, List.map_cons,
    List.map_nil, List.mem_cons, List.not_mem_nil, or_false, exists_eq_or_imp, exists_eq_left]
  omega

theorem exists_sampleRate_iff (s : Rat) : (∃ r ∈ sampleRates, s ≤ r) ↔ s ≤ 48000 := by
  simp only [sampleRates, LFLiveAudioSampleRate.all, LFLiveAudioSampleRate.rawValue, List.map_cons,
    List.map_nil, List.mem_cons, List.not_mem_nil, or_false, exists_eq_or_imp, exists_eq_left]
  constructor
  · rintro (h | h | h)
    · exact h.trans (by norm_num)
    · exact h.trans (by norm_num)
    · exact h
  · exact fun h => .inr (.inr h)

/-- The cascades default to a rate that is not the largest. -/
theorem bitRate_default_not_greatest :
    ¬ IsGreatest {r | r ∈ bitRates} LFLiveAudioBitRate.default.rawValue := by
  intro h
  have hle : (128000 : Int) ≤ 96000 := h.2 (by decide)
  omega

theorem sampleRate_default_not_greatest :
    ¬ IsGreatest {r | r ∈ sampleRates} LFLiveAudioSampleRate.default.rawValue := by
  intro h
  have hle : (48000 : Rat) ≤ 44100 := h.2 (by decide +kernel)
  norm_num at hle

theorem chosen_bitRate_iff (b : Int) :
    Chosen bitRates b (lfLiveKitAudioBitRate b).rawValue ↔ b ≤ 128000 := by
  rw [lfLiveKitAudioBitRate_eq_cascade, chosen_cascade_iff bitRates_ascending, exists_bitRate_iff,
    or_iff_left bitRate_default_not_greatest]

theorem chosen_sampleRate_iff (s : Rat) :
    Chosen sampleRates s (lfLiveKitAudioSampleRate s).rawValue ↔ s ≤ 48000 := by
  rw [lfLiveKitAudioSampleRate_eq_cascade, chosen_cascade_iff sampleRates_ascending,
    exists_sampleRate_iff, or_iff_left sampleRate_default_not_greatest]

theorem lfLiveKitAudioBitRate_mono {b₁ b₂ : Int} (hb : b₁ ≤ b₂) (h : b₂ ≤ 128000) :
    (lfLiveKitAudioBitRate b₁).rawValue ≤ (lfLiveKitAudioBitRate b₂).rawValue := by
  rw [lfLiveKitAudioBitRate_eq_cascade, lfLiveKitAudioBitRate_eq_cascade]
  exact cascade_mono bitRates_ascending hb ((exists_bitRate_iff b₂).mpr h)

theorem lfLiveKitAudioSampleRate_mono {s₁ s₂ : Rat} (hs : s₁ ≤ s₂) (h : s₂ ≤ 48000) :
    (lfLiveKitAudioSampleRate s₁).rawValue ≤ (lfLiveKitAudioSampleRate s₂).rawValue := by
  rw [lfLiveKitAudioSampleRate_eq_cascade, lfLiveKitAudioSampleRate_eq_cascade]
  exact cascade_mono sampleRates_ascending hs ((exists_sampleRate_iff s₂).mpr h)

theorem setupAudioConfiguration_rates {a : MuxLiveAudioConfiguration} {c : LFLiveAudioConfiguration}
    (h : setupAudioConfiguration a = some c) :
    c.audioBitrate = lfLiveKitAudioBitRate a.bitRate ∧
      c.audioSampleRate = lfLiveKitAudioSampleRate a.sampleRate := by
  cases hcount : a.channelsCount with
  | none =>
    simp only [setupAudioConfiguration, hcount] at h
    obtain rfl := Option.some.inj h
    exact ⟨rfl, rfl⟩
  | some channelsCount =>
    simp only [setupAudioConfiguration, hcount] at h
    rcases Option.bind_eq_some_iff.mp h with ⟨n, -, h⟩
    obtain rfl := Option.some.inj h
    exact ⟨rfl, rfl⟩

/-- Of two sessions the one set up with the larger requests, up to the largest supported values,
gets no lower quality. -/
theorem setupAudioConfiguration_mono {a₁ a₂ : MuxLiveAudioConfiguration}
    {c₁ c₂ : LFLiveAudioConfiguration} (h₁ : setupAudioConfiguration a₁ = some c₁)
    (h₂ : setupAudioConfiguration a₂ = some c₂) (hb : a₁.bitRate ≤ a₂.bitRate)
    (hs : a₁.sampleRate ≤ a₂.sampleRate) (hb₂ : a₂.bitRate ≤ 128000)
    (hs₂ : a₂.sampleRate ≤ 48000) :
    c₁.audioBitrate.rawValue ≤ c₂.audioBitrate.rawValue ∧
      c₁.audioSampleRate.rawValue ≤ c₂.audioSampleRate.rawValue := by
  rcases setupAudioConfiguration_rates h₁ with ⟨hbit₁, hsample₁⟩
  rcases setupAudioConfiguration_rates h₂ with ⟨hbit₂, hsample₂⟩
  rw [hbit₁, hbit₂, hsample₁, hsample₂]
  exact ⟨lfLiveKitAudioBitRate_mono hb hb₂, lfLiveKitAudioSampleRate_mono hs hs₂⟩

/-- Of two requests the larger gets no lower quality, and each gets the least supported value not
below it, or the largest one. -/
structure QualityFollows (b₁ b₂ : Int) (s₁ s₂ : Rat) : Prop where
  bitRate_mono : (lfLiveKitAudioBitRate b₁).rawValue ≤ (lfLiveKitAudioBitRate b₂).rawValue
  sampleRate_mono : (lfLiveKitAudioSampleRate s₁).rawValue ≤ (lfLiveKitAudioSampleRate s₂).rawValue
  bitRate : ∀ b, b = b₁ ∨ b = b₂ → Chosen bitRates b (lfLiveKitAudioBitRate b).rawValue
  sampleRate : ∀ s, s = s₁ ∨ s = s₂ → Chosen sampleRates s (lfLiveKitAudioSampleRate s).rawValue

/-- **Audio quality.** It follows the requests exactly up to the largest supported values. -/
theorem quality_follows_iff {b₁ b₂ : Int} {s₁ s₂ : Rat} (hb : b₁ ≤ b₂) (hs : s₁ ≤ s₂) :
    QualityFollows b₁ b₂ s₁ s₂ ↔ b₂ ≤ 128000 ∧ s₂ ≤ 48000 := by
  constructor
  · intro h
    exact ⟨(chosen_bitRate_iff b₂).mp (h.bitRate b₂ (.inr rfl)),
      (chosen_sampleRate_iff s₂).mp (h.sampleRate s₂ (.inr rfl))⟩
  · rintro ⟨hb₂, hs₂⟩
    constructor
    · exact lfLiveKitAudioBitRate_mono hb hb₂
    · exact lfLiveKitAudioSampleRate_mono hs hs₂
    · rintro b (rfl | rfl)
      · exact (chosen_bitRate_iff b).mpr (hb.trans hb₂)
      · exact (chosen_bitRate_iff b).mpr hb₂
    · rintro s (rfl | rfl)
      · exact (chosen_sampleRate_iff s).mpr (hs.trans hs₂)
      · exact (chosen_sampleRate_iff s).mpr hs₂

theorem quality_follows_supported : QualityFollows 64000 96000 16000 44100 :=
  (quality_follows_iff (by decide) (by decide +kernel)).mpr ⟨by decide, by decide +kernel⟩

/-- A request beyond 128 kbit/s gets less than one for 128 kbit/s. -/
theorem quality_drops_beyond_largest : ¬ QualityFollows 128000 256000 44100 44100 := by
  intro h
  have hmono := h.bitRate_mono
  revert hmono
  decide

end WaxxyLive.Mux
