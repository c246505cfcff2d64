import WaxxyLive.Lib.SortWindow
import WaxxyLive.Lib.Runs
import Mathlib.Algebra.GroupWithZero.Nat

/-!
# The streaming buffer

`LFStreamingBuffer` sorts the frames that come in through a window of five and
queues them for the socket. A full queue first gives up the rest of a group of
pictures, then a key frame, then everything. Once a second the length of the
queue is sampled, and after five samples the delegate is told of a trend.
-/

namespace WaxxyLive.LiveKit

/-! ## Frames -/

/-- What `LFVideoFrame` and `LFAudioFrame` add to `LFFrame`. -/
inductive FrameKind where
  | video (isKeyFrame : Bool) (sps pps : Option (List UInt8))
  | audio (audioInfo : Option (List UInt8))
  deriving DecidableEq, Repr

/-- A frame object; `object` is its identity, by which arrays compare it. -/
structure LFFrame where
  object : Nat
  timestamp : UInt64
  data : List UInt8
  kind : FrameKind
  deriving DecidableEq, Repr

def LFFrame.isVideo (frame : LFFrame) : Bool :=
  match frame.kind with
  | .video _ _ _ => true
  | .audio _ => false

def LFFrame.isKeyFrame (frame : LFFrame) : Bool :=
  match frame.kind with
  | .video isKeyFrame _ _ => isKeyFrame
  | .audio _ => false

/-- A video frame that is no key frame. -/
def LFFrame.isPFrame (frame : LFFrame) : Bool := frame.isVideo && !frame.isKeyFrame

/-- What `frameDataCompare` sorts by. -/
def LFFrame.time (frame : LFFrame) : Nat := frame.timestamp.toNat

inductive LFLiveBuffferState where
  | unknown
  | increase
  | decline
  deriving DecidableEq, Repr

/-! ## The buffer -/

def defaultSortBufferMaxCount : Nat := 5
def defaultUpdateInterval : Nat := 1
def defaultCallBackInterval : Nat := 5
def defaultSendBufferMaxCount : Nat := 600

structure LFStreamingBuffer where
  sortList : List LFFrame := []
  list : List LFFrame := []
  thresholdList : List Nat := []
  currentInterval : Nat := 0
  callBackInterval : Nat := defaultCallBackInterval
  updateInterval : Nat := defaultUpdateInterval
  startTimer : Bool := false
  maxCount : Nat := defaultSendBufferMaxCount
  lastDropFrames : Nat := 0

/-- The loop of `expirePFrames`, with the frames collected so far. -/
def expirePFramesLoop (pframes : List LFFrame) : List LFFrame → List LFFrame
  | [] => pframes
  | frame :: rest =>
    if frame.isVideo then
      if frame.isKeyFrame ∧ pframes ≠ [] then pframes
      else if ¬ frame.isKeyFrame then expirePFramesLoop (pframes ++ [frame]) rest
      else expirePFramesLoop pframes rest
    else expirePFramesLoop pframes rest

def expirePFrames (list : List LFFrame) : List LFFrame := expirePFramesLoop [] list

/-- The loop of `expireIFrames`. -/
def expireIFramesLoop (iframes : List LFFrame) (timeStamp : UInt64) :
    List LFFrame → List LFFrame
  | [] => iframes
  | frame :: rest =>
    if frame.isKeyFrame then
      if timeStamp ≠ 0 ∧ timeStamp ≠ frame.timestamp then iframes
      else expireIFramesLoop (iframes ++ [frame]) frame.timestamp rest
    else expireIFramesLoop iframes timeStamp rest

def expireIFrames (list : List LFFrame) : List LFFrame := expireIFramesLoop [] 0 list

/-- `removeObjectsInArray:` -/
def removeObjects (frames list : List LFFrame) : List LFFrame :=
  list.filter fun frame => frame ∉ frames

namespace LFStreamingBuffer

def removeExpireFrame (b : LFStreamingBuffer) : LFStreamingBuffer :=
  if b.list.length < b.maxCount then b
  else
    let pFrames := expirePFrames b.list
    let b := { b with lastDropFrames := b.lastDropFrames + pFrames.length }
    if 0 < pFrames.length then { b with list := removeObjects pFrames b.list }
    else
      let iFrames := expireIFrames b.list
      let b := { b with lastDropFrames := b.lastDropFrames + iFrames.length }
      if 0 < iFrames.length then { b with list := removeObjects iFrames b.list }
      else { b with list := [] }

/-- `currentBufferState`: how many samples rose above the one before, and how
many did not; the first is compared with zero. -/
def countSamples : Nat → List Nat → Nat × Nat
  | _, [] => (0, 0)
  | currentCount, number :: rest =>
    let (increaseCount, decreaseCount) := countSamples number rest
    if currentCount < number then (increaseCount + 1, decreaseCount)
    else (increaseCount, decreaseCount + 1)

def currentBufferState (b : LFStreamingBuffer) : LFLiveBuffferState :=
  let (increaseCount, decreaseCount) := countSamples 0 b.thresholdList
  if b.callBackInterval ≤ increaseCount then .increase
  else if b.callBackInterval ≤ decreaseCount then .decline
  else .unknown

/-- `tick`, and what the delegate is told. -/
def tick (b : LFStreamingBuffer) : LFStreamingBuffer × Option LFLiveBuffferState :=
  let b := { b with
    currentInterval := b.currentInterval + b.updateInterval
    thresholdList := b.thresholdList ++ [b.list.length] }
  if b.callBackInterval ≤ b.currentInterval then
    let told := match b.currentBufferState with
      | .increase => some .increase
      | .decline => some .decline
      | .unknown => none
    ({ b with currentInterval := 0, thresholdList := [] }, told)
  else (b, none)

/-- `appendObject:` after its timer has been started. -/
def insert (S : SortWindow.Sorter LFFrame.time) (b : LFStreamingBuffer) (frame : LFFrame) :
    LFStreamingBuffer :=
  if b.sortList.length < defaultSortBufferMaxCount then
    { b with sortList := b.sortList ++ [frame] }
  else
    let b := { b with sortList := S.sort (b.sortList ++ [frame]) }
    let b := b.removeExpireFrame
    match b.sortList with
    | [] => b
    | firstFrame :: sortList => { b with sortList, list := b.list ++ [firstFrame] }

def appendObject (S : SortWindow.Sorter LFFrame.time) (b : LFStreamingBuffer) (frame : LFFrame) :
    LFStreamingBuffer × Option LFLiveBuffferState :=
  let (b, told) := if b.startTimer then (b, none) else { b with startTimer := true }.tick
  (b.insert S frame, told)

def popFirstObject (b : LFStreamingBuffer) : LFStreamingBuffer × Option LFFrame :=
  ({ b with list := b.list.tail }, b.list.head?)

def removeAllObject (b : LFStreamingBuffer) : LFStreamingBuffer := { b with list := [] }

end LFStreamingBuffer

/-! ## What a full queue drops -/

theorem expirePFramesLoop_of_ne_nil (pframes : List LFFrame) (h : pframes ≠ [])
    (list : List LFFrame) :
    expirePFramesLoop pframes list =
      pframes ++ (list.takeWhile fun f => !f.isKeyFrame).filter LFFrame.isPFrame := by
  induction list generalizing pframes with
  | nil => simp [expirePFramesLoop]
  | cons frame rest ih =>
    rw [expirePFramesLoop]
    by_cases hv : frame.isVideo = true
    · by_cases hk : frame.isKeyFrame = true
      · simp [hv, hk, h]
      · have hcollect := ih (pframes ++ [frame]) (by simp)
        simp [hv, hk, hcollect, LFFrame.isPFrame]
    · have hk : frame.isKeyFrame = false := by
        unfold LFFrame.isKeyFrame
        unfold LFFrame.isVideo at hv
        split <;> simp_all
      simp [hv, hk, ih pframes h, LFFrame.isPFrame]

/-- The P frames from the first one on, up to the next key frame. -/
theorem expirePFrames_eq (list : List LFFrame) :
    expirePFrames list =
      ((list.dropWhile fun f => !f.isPFrame).takeWhile fun f => !f.isKeyFrame).filter
        LFFrame.isPFrame := by
  induction list with
  | nil => rfl
  | cons frame rest ih =>
    rw [expirePFrames, expirePFramesLoop]
    by_cases hp : frame.isPFrame = true
    · have hcollect := expirePFramesLoop_of_ne_nil [frame] (by simp) rest
      simp only [LFFrame.isPFrame, Bool.and_eq_true, Bool.not_eq_true'] at hp
      simp [hp, LFFrame.isPFrame, hcollect]
    · have hskip : (if frame.isVideo then
            if frame.isKeyFrame ∧ ([] : List LFFrame) ≠ [] then []
            else if ¬ frame.isKeyFrame then expirePFramesLoop ([] ++ [frame]) rest
            else expirePFramesLoop [] rest
          else expirePFramesLoop [] rest) = expirePFrames rest := by
        simp only [LFFrame.isPFrame, Bool.and_eq_true, Bool.not_eq_true'] at hp
        by_cases hv : frame.isVideo = true <;> by_cases hk : frame.isKeyFrame = true <;>
          simp_all [expirePFrames]
      rw [hskip, ih]
      simp [hp]

theorem expireIFramesLoop_sublist {iframes : List LFFrame} {timeStamp : UInt64}
    {list all : List LFFrame} (h : (iframes ++ list).Sublist all) :
    (expireIFramesLoop iframes timeStamp list).Sublist all := by
  induction list generalizing iframes timeStamp with
  | nil => simpa [expireIFramesLoop] using h
  | cons frame rest ih =>
    rw [expireIFramesLoop]
    split
    · split
      · exact (List.sublist_append_left iframes _).trans h
      · exact ih (by simpa using h)
    · exact ih (((List.sublist_cons_self frame rest).append_left iframes).trans h)

theorem expireIFrames_sublist (list : List LFFrame) : (expireIFrames list).Sublist list :=
  expireIFramesLoop_sublist (by simp)

theorem expirePFrames_sublist (list : List LFFrame) : (expirePFrames list).Sublist list := by
  rw [expirePFrames_eq]
  exact List.filter_sublist.trans
    ((List.takeWhile_sublist _).trans (List.dropWhile_sublist _))

theorem expirePFrames_eq_nil_iff (list : List LFFrame) :
    expirePFrames list = [] ↔ ∀ f ∈ list, f.isPFrame = false := by
  rw [expirePFrames_eq]
  induction list with
  | nil => simp
  | cons frame rest ih =>
    by_cases hp : frame.isPFrame = true
    · have hk : frame.isKeyFrame = false := by
        simp only [LFFrame.isPFrame, Bool.and_eq_true, Bool.not_eq_true'] at hp
        exact hp.2
      simp [hp, hk]
    · simp [hp, ih]

theorem removeObjects_perm {frames list : List LFFrame} (hs : frames.Sublist list)
    (hn : list.Nodup) : (removeObjects frames list ++ frames).Perm list := by
  have hin : (list.filter fun f => decide (f ∈ frames)).Perm frames := by
    rw [List.perm_ext_iff_of_nodup (hn.filter _) (hs.nodup hn)]
    intro f
    simp only [List.mem_filter, decide_eq_true_eq]
    exact ⟨And.right, fun hf => ⟨hs.subset hf, hf⟩⟩
  have hsplit := List.filter_append_perm (fun f => decide (f ∉ frames)) list
  simp only [decide_not, Bool.not_not] at hsplit
  rw [removeObjects]
  simpa using (hin.symm.append_left _).trans hsplit

/-- The queue around the frames it drops: what comes before the first P frame,
the rest of its group of pictures, and what follows from the next key frame on. -/
theorem exists_group {list : List LFFrame} (h : expirePFrames list ≠ []) :
    ∃ before group after, list = before ++ (group ++ after) ∧
      (∀ f ∈ before, f.isPFrame = false) ∧ (∃ f ∈ group.head?, f.isPFrame = true) ∧
      (∀ f ∈ group, f.isKeyFrame = false) ∧ (∀ f ∈ after.head?, f.isKeyFrame = true) ∧
      expirePFrames list = group.filter LFFrame.isVideo := by
  have hne : list.dropWhile (fun f => !f.isPFrame) ≠ [] := by
    intro hnil
    rw [expirePFrames_eq, hnil] at h
    exact h rfl
  obtain ⟨p, rest, hrest⟩ := List.exists_cons_of_ne_nil hne
  have hp : p.isPFrame = true := by
    have := List.head?_dropWhile_not (fun f => !f.isPFrame) list
    rw [hrest] at this
    simpa using this
  have hk : p.isKeyFrame = false := by
    simp only [LFFrame.isPFrame, Bool.and_eq_true, Bool.not_eq_true'] at hp
    exact hp.2
  have hgroup : ∀ f ∈ (p :: rest).takeWhile (fun f => !f.isKeyFrame), f.isKeyFrame = false := by
    intro f hf
    simpa using List.all_eq_true.mp List.all_takeWhile f hf
  refine ⟨list.takeWhile fun f => !f.isPFrame, (p :: rest).takeWhile fun f => !f.isKeyFrame,
    (p :: rest).dropWhile fun f => !f.isKeyFrame, ?_, ?_, ?_, hgroup, ?_, ?_⟩
  · rw [List.takeWhile_append_dropWhile, ← hrest, List.takeWhile_append_dropWhile]
  · intro f hf
    simpa using List.all_eq_true.mp List.all_takeWhile f hf
  · exact ⟨p, by simp [hk], hp⟩
  · intro f hf
    have := List.head?_dropWhile_not (fun f => !f.isKeyFrame) (p :: rest)
    rw [Option.mem_def.mp hf] at this
    simpa using this
  · rw [expirePFrames_eq, hrest]
    refine List.filter_congr fun f hf => ?_
    simp [LFFrame.isPFrame, hgroup f hf]

/-- Removing the video frames of a group leaves everything around them. -/
theorem removeObjects_group {before group after : List LFFrame}
    (hn : (before ++ (group ++ after)).Nodup) :
    removeObjects (group.filter LFFrame.isVideo) (before ++ (group ++ after)) =
      before ++ (group.filter (fun f => !f.isVideo) ++ after) := by
  rw [List.nodup_append, List.nodup_append] at hn
  obtain ⟨-, ⟨-, -, hga⟩, hbga⟩ := hn
  have hb : before.filter (fun f => decide (f ∉ group.filter LFFrame.isVideo)) = before := by
    refine List.filter_eq_self.mpr fun f hf => ?_
    simp only [List.mem_filter, decide_eq_true_eq]
    exact fun hg => hbga f hf f (List.mem_append_left _ hg.1) rfl
  have ha : after.filter (fun f => decide (f ∉ group.filter LFFrame.isVideo)) = after := by
    refine List.filter_eq_self.mpr fun f hf => ?_
    simp only [List.mem_filter, decide_eq_true_eq]
    exact fun hg => hga f hg.1 f hf rfl
  have hg : group.filter (fun f => decide (f ∉ group.filter LFFrame.isVideo)) =
      group.filter fun f => !f.isVideo := by
    refine List.filter_congr fun f hf => ?_
    simp [hf]
  rw [removeObjects, List.filter_append, List.filter_append, hb, hg, ha]

namespace LFStreamingBuffer

/-- The frames that `removeExpireFrame` counts as dropped. -/
def counted (b : LFStreamingBuffer) : List LFFrame :=
  if b.list.length < b.maxCount then []
  else if expirePFrames b.list ≠ [] then expirePFrames b.list
  else expireIFrames b.list

/-- The frames that it throws away without counting them. -/
def uncounted (b : LFStreamingBuffer) : List LFFrame :=
  if b.list.length < b.maxCount ∨ expirePFrames b.list ≠ [] ∨ expireIFrames b.list ≠ [] then []
  else b.list

/-- The four outcomes of `removeExpireFrame`. -/
theorem removeExpireFrame_cases (b : LFStreamingBuffer) :
    (b.list.length < b.maxCount ∧ b.removeExpireFrame = b ∧ b.counted = [] ∧ b.uncounted = []) ∨
    (b.maxCount ≤ b.list.length ∧ b.counted ≠ [] ∧ b.uncounted = [] ∧
      b.counted.Sublist b.list ∧
      b.removeExpireFrame = { b with
        list := removeObjects b.counted b.list
        lastDropFrames := b.lastDropFrames + b.counted.length }) ∨
    (b.maxCount ≤ b.list.length ∧ b.counted = [] ∧ b.uncounted = b.list ∧
      b.removeExpireFrame = { b with list := [] }) := by
  by_cases hfull : b.list.length < b.maxCount
  · left
    simp [removeExpireFrame, counted, uncounted, hfull]
  · right
    have hle : b.maxCount ≤ b.list.length := by omega
    by_cases hp : expirePFrames b.list = []
    · by_cases hi : expireIFrames b.list = []
      · right
        refine ⟨hle, ?_, ?_, ?_⟩
        · simp [counted, hfull, hp, hi]
        · simp [uncounted, hfull, hp, hi]
        · simp [removeExpireFrame, hfull, hp, hi]
      · left
        have hlen : 0 < (expireIFrames b.list).length := List.length_pos_iff.mpr hi
        have hc : b.counted = expireIFrames b.list := by simp [counted, hfull, hp]
        refine ⟨hle, by rw [hc]; exact hi, by simp [uncounted, hi],
          by rw [hc]; exact expireIFrames_sublist b.list, ?_⟩
        rw [hc]
        simp [removeExpireFrame, hfull, hp, hlen]
    · left
      have hlen : 0 < (expirePFrames b.list).length := List.length_pos_iff.mpr hp
      have hc : b.counted = expirePFrames b.list := by simp [counted, hfull, hp]
      refine ⟨hle, by rw [hc]; exact hp, by simp [uncounted, hp],
        by rw [hc]; exact expirePFrames_sublist b.list, ?_⟩
      rw [hc]
      simp [removeExpireFrame, hfull, hlen]

theorem removeExpireFrame_sublist (b : LFStreamingBuffer) :
    b.removeExpireFrame.list.Sublist b.list := by
  rcases b.removeExpireFrame_cases with ⟨-, h, -⟩ | ⟨-, -, -, -, h⟩ | ⟨-, -, -, h⟩ <;> rw [h]
  · exact List.filter_sublist
  · exact List.nil_sublist b.list

theorem removeExpireFrame_perm {b : LFStreamingBuffer} (hn : b.list.Nodup) :
    (b.removeExpireFrame.list ++ (b.counted ++ b.uncounted)).Perm b.list := by
  rcases b.removeExpireFrame_cases with ⟨-, h, hc, hu⟩ | ⟨-, -, hu, hs, h⟩ | ⟨-, hc, hu, h⟩
  · simp [h, hc, hu]
  · rw [h, hu, List.append_nil]
    exact removeObjects_perm hs hn
  · simp [h, hc, hu]

theorem removeExpireFrame_room {b : LFStreamingBuffer} (hn : b.list.Nodup)
    (hmax : 0 < b.maxCount) (hb : b.list.length ≤ b.maxCount) :
    b.removeExpireFrame.list.length < b.maxCount := by
  rcases b.removeExpireFrame_cases with ⟨hlt, h, -⟩ | ⟨-, hc, -, hs, h⟩ | ⟨-, -, -, h⟩
  · rw [h]
    exact hlt
  · have hlen := (removeObjects_perm hs hn).length_eq
    have hpos := List.length_pos_iff.mpr hc
    rw [List.length_append] at hlen
    rw [h]
    dsimp only
    omega
  · rw [h]
    exact hmax

/-- A full queue with a P frame drops the video frames of one group of pictures
and nothing else: the frames before the first P frame, the audio inside the
group, and everything from the next key frame on stay where they are. -/
theorem overflow_drops_group {b : LFStreamingBuffer} (hn : b.list.Nodup)
    (hfull : b.maxCount ≤ b.list.length) (hp : ∃ f ∈ b.list, f.isPFrame = true) :
    ∃ before group after, b.list = before ++ (group ++ after) ∧
      (∀ f ∈ before, f.isPFrame = false) ∧ (∃ f ∈ group.head?, f.isPFrame = true) ∧
      (∀ f ∈ group, f.isKeyFrame = false) ∧ (∀ f ∈ after.head?, f.isKeyFrame = true) ∧
      b.removeExpireFrame = { b with
        list := before ++ (group.filter (fun f => !f.isVideo) ++ after)
        lastDropFrames := b.lastDropFrames + (group.filter LFFrame.isVideo).length } := by
  have hne : expirePFrames b.list ≠ [] := by
    intro hnil
    obtain ⟨f, hf, hpf⟩ := hp
    rw [(expirePFrames_eq_nil_iff b.list).mp hnil f hf] at hpf
    exact absurd hpf (by simp)
  obtain ⟨before, group, after, hlist, hbefore, hhead, hgroup, hafter, heq⟩ := exists_group hne
  refine ⟨before, group, after, hlist, hbefore, hhead, hgroup, hafter, ?_⟩
  have hlen : 0 < (expirePFrames b.list).length := List.length_pos_iff.mpr hne
  have hremove := removeObjects_group (hlist ▸ hn)
  rw [← hlist, ← heq] at hremove
  simp only [removeExpireFrame, if_neg (Nat.not_lt.mpr hfull), if_pos hlen, hremove]
  rw [heq]

/-- A full queue with a group of pictures that has lost its key frame. -/
def fullQueue : LFStreamingBuffer where
  maxCount := 5
  list := [frame 0 (.audio none), frame 1 (.video false none none), frame 2 (.audio none),
    frame 3 (.video false none none), frame 4 (.video true none none)]
where
  frame (object : Nat) (kind : FrameKind) : LFFrame := { object, timestamp := 7, data := [], kind }

theorem overflow_drops_group_fullQueue :
    ∃ before group after, fullQueue.list = before ++ (group ++ after) ∧
      (∀ f ∈ after.head?, f.isKeyFrame = true) ∧
      fullQueue.removeExpireFrame.list =
        before ++ (group.filter (fun f => !f.isVideo) ++ after) := by
  obtain ⟨before, group, after, hlist, -, -, -, hafter, heq⟩ :=
    overflow_drops_group (b := fullQueue) (by decide) (by decide) (by decide)
  exact ⟨before, group, after, hlist, hafter, by rw [heq]⟩

/-! ## Runs -/

/-- What is done to the buffer: a frame comes, the socket pops one, empties the
queue or takes over the count of dropped frames, and the timer ticks. -/
inductive Action where
  | appendObject (frame : LFFrame)
  | popFirstObject
  | removeAllObject
  | takeDropFrames
  | tick

variable (S : SortWindow.Sorter LFFrame.time)

def step (b : LFStreamingBuffer) : Action → Option LFStreamingBuffer
  | .appendObject frame => some (b.appendObject S frame).1
  | .popFirstObject => some b.popFirstObject.1
  | .removeAllObject => some b.removeAllObject
  | .takeDropFrames => some { b with lastDropFrames := 0 }
  | .tick => some b.tick.1

def came (_ : LFStreamingBuffer) : Action → List LFFrame
  | .appendObject frame => [frame]
  | _ => []

def popped (b : LFStreamingBuffer) : Action → List LFFrame
  | .popFirstObject => b.popFirstObject.2.toList
  | _ => []

/-- The window is full, so that a frame moves on to the queue. -/
def moves (b : LFStreamingBuffer) : Bool := decide (defaultSortBufferMaxCount ≤ b.sortList.length)

def dropped (b : LFStreamingBuffer) : Action → List LFFrame
  | .appendObject _ => if b.moves then b.counted else []
  | _ => []

def cleared (b : LFStreamingBuffer) : Action → List LFFrame
  | .appendObject _ => if b.moves then b.uncounted else []
  | .removeAllObject => b.list
  | _ => []

def taken (b : LFStreamingBuffer) : Action → List Nat
  | .takeDropFrames => [b.lastDropFrames]
  | _ => []

/-- The timer touches the samples only. -/
theorem tick_eq (b : LFStreamingBuffer) :
    ∃ c t, b.tick.1 = { b with currentInterval := c, thresholdList := t } := by
  unfold tick
  dsimp only
  split
  · exact ⟨_, _, rfl⟩
  · exact ⟨_, _, rfl⟩

/-- The frame that the sorting window gives up when `frame` comes. -/
def released (b : LFStreamingBuffer) (frame : LFFrame) : List LFFrame :=
  (SortWindow.push S defaultSortBufferMaxCount b.sortList frame).2.toList

/-- What `insert` does: the window takes the frame in, and once it is full the
frame that leaves it goes to the end of a queue with room made for it. -/
theorem insert_cases (b : LFStreamingBuffer) (frame : LFFrame) :
    (b.insert S frame).sortList =
        (SortWindow.push S defaultSortBufferMaxCount b.sortList frame).1 ∧
      (b.insert S frame).maxCount = b.maxCount ∧
      ((b.moves = false ∧ b.released S frame = [] ∧ (b.insert S frame).list = b.list ∧
          (b.insert S frame).lastDropFrames = b.lastDropFrames) ∨
        (b.moves = true ∧ (b.released S frame).length = 1 ∧
          (b.insert S frame).list = b.removeExpireFrame.list ++ b.released S frame ∧
          (b.insert S frame).lastDropFrames = b.lastDropFrames + b.counted.length)) := by
  by_cases hroom : b.sortList.length < defaultSortBufferMaxCount
  · simp [insert, SortWindow.push, released, moves, hroom]
  · obtain ⟨a, l, hal⟩ := List.exists_cons_of_ne_nil
      (SortWindow.sort_concat_ne_nil S (w := b.sortList) (x := frame))
    have hmax : b.removeExpireFrame.maxCount = b.maxCount := by
      rcases b.removeExpireFrame_cases with ⟨-, h, -⟩ | ⟨-, -, -, -, h⟩ | ⟨-, -, -, h⟩ <;> rw [h]
    have hdrop : b.removeExpireFrame.lastDropFrames = b.lastDropFrames + b.counted.length := by
      rcases b.removeExpireFrame_cases with ⟨-, h, hc, -⟩ | ⟨-, -, -, -, h⟩ | ⟨-, hc, -, h⟩
      · simp [h, hc]
      · rw [h]
      · simp [h, hc]
    have hframe : ({ b with sortList := a :: l } : LFStreamingBuffer).removeExpireFrame =
        { b.removeExpireFrame with sortList := a :: l } := by
      unfold removeExpireFrame
      split
      · rfl
      · dsimp only
        split
        · rfl
        · split <;> rfl
    have hinsert : b.insert S frame =
        { b.removeExpireFrame with sortList := l, list := b.removeExpireFrame.list ++ [a] } := by
      simp only [insert, if_neg hroom, hal, hframe]
    have hpush : SortWindow.push S defaultSortBufferMaxCount b.sortList frame = (l, some a) := by
      simp [SortWindow.push, hroom, hal]
    rw [hinsert, released, hpush]
    refine ⟨rfl, hmax, Or.inr ⟨?_, rfl, rfl, hdrop⟩⟩
    simpa [moves] using hroom

theorem removeExpireFrame_samples (b : LFStreamingBuffer) (c : Nat) (t : List Nat) (r : Bool) :
    ({ b with currentInterval := c, thresholdList := t, startTimer := r } :
      LFStreamingBuffer).removeExpireFrame =
    { b.removeExpireFrame with currentInterval := c, thresholdList := t, startTimer := r } := by
  unfold removeExpireFrame
  split
  · rfl
  · dsimp only
    split
    · rfl
    · split <;> rfl

theorem insert_samples (b : LFStreamingBuffer) (c : Nat) (t : List Nat) (r : Bool)
    (frame : LFFrame) :
    ({ b with currentInterval := c, thresholdList := t, startTimer := r } :
      LFStreamingBuffer).insert S frame =
    { b.insert S frame with currentInterval := c, thresholdList := t, startTimer := r } := by
  have hb := removeExpireFrame_samples { b with sortList := S.sort (b.sortList ++ [frame]) } c t r
  unfold insert
  split
  · rfl
  · dsimp only at hb ⊢
    rw [hb]
    split <;> simp_all

/-- The first frame starts the timer, and the frame is inserted either way. -/
theorem appendObject_eq (b : LFStreamingBuffer) (frame : LFFrame) :
    ∃ c t, (b.appendObject S frame).1 =
      { b.insert S frame with currentInterval := c, thresholdList := t, startTimer := true } := by
  by_cases hstarted : b.startTimer = true
  · have hb : { b with startTimer := true } = b := by
      cases b
      simp_all
    refine ⟨b.currentInterval, b.thresholdList, ?_⟩
    rw [← insert_samples, hb]
    simp [appendObject, hstarted]
  · obtain ⟨c, t, htick⟩ := { b with startTimer := true }.tick_eq
    refine ⟨c, t, ?_⟩
    rw [← insert_samples]
    simp [appendObject, hstarted, htick]

/-- Inserting leaves the samples and the timer's intervals alone. -/
theorem insert_same (b : LFStreamingBuffer) (frame : LFFrame) :
    (b.insert S frame).thresholdList = b.thresholdList ∧
      (b.insert S frame).currentInterval = b.currentInterval ∧
      (b.insert S frame).updateInterval = b.updateInterval ∧
      (b.insert S frame).callBackInterval = b.callBackInterval := by
  have hsame : ∀ r : LFStreamingBuffer, r.removeExpireFrame.thresholdList = r.thresholdList ∧
      r.removeExpireFrame.currentInterval = r.currentInterval ∧
      r.removeExpireFrame.updateInterval = r.updateInterval ∧
      r.removeExpireFrame.callBackInterval = r.callBackInterval := by
    intro r
    rcases r.removeExpireFrame_cases with ⟨-, h, -⟩ | ⟨-, -, -, -, h⟩ | ⟨-, -, -, h⟩ <;>
      rw [h] <;> exact ⟨rfl, rfl, rfl, rfl⟩
  unfold insert
  split
  · exact ⟨rfl, rfl, rfl, rfl⟩
  · dsimp only
    split
    · exact hsame { b with sortList := S.sort (b.sortList ++ [frame]) }
    · exact hsame { b with sortList := S.sort (b.sortList ++ [frame]) }

/-! ### What becomes of the frames -/

/-- The frames that the sorting window gives up at a step. -/
def leaving (b : LFStreamingBuffer) : Action → List LFFrame
  | .appendObject frame => b.released S frame
  | _ => []

/-- The account of the frames of a run: `all` came, the frames `out` have left
the window, and each of these is popped, queued, counted as dropped or cleared. -/
structure Account (all out gone lost thrown : List LFFrame) (told : List Nat)
    (b : LFStreamingBuffer) : Prop where
  passed : SortWindow.Passed defaultSortBufferMaxCount all out b.sortList
  kept : (gone ++ b.list).Sublist out
  whole : (gone ++ b.list ++ (lost ++ thrown)).Perm out
  counts : told.sum + b.lastDropFrames = lost.length
  room : b.list.length ≤ b.maxCount
  limit : b.maxCount = defaultSendBufferMaxCount

variable {S} {b b' : LFStreamingBuffer} {all out gone lost thrown : List LFFrame}
  {told : List Nat} {a : Action}

theorem Account.init : Account [] [] [] [] [] [] {} where
  passed := SortWindow.passed_nil
  kept := List.Sublist.refl _
  whole := List.Perm.refl _
  counts := rfl
  room := Nat.zero_le _
  limit := rfl

theorem Account.nodup (h : Account all out gone lost thrown told b) (hn : all.Nodup) :
    b.list.Nodup := by
  have hout : (out ++ b.sortList).Nodup := h.passed.perm.nodup_iff.mpr hn
  have hsub : b.list.Sublist (out ++ b.sortList) :=
    ((List.sublist_append_right gone b.list).trans h.kept).trans
      (List.sublist_append_left out b.sortList)
  exact hsub.nodup hout

/-- A step that leaves the window, the limit and the count of dropped frames alone. -/
theorem Account.same {r : LFStreamingBuffer} (h : Account all out gone lost thrown told b)
    (hs : r.sortList = b.sortList) (hl : r.list = b.list) (hm : r.maxCount = b.maxCount)
    (hd : r.lastDropFrames = b.lastDropFrames) : Account all out gone lost thrown told r where
  passed := by rw [hs]; exact h.passed
  kept := by rw [hl]; exact h.kept
  whole := by rw [hl]; exact h.whole
  counts := by rw [hd]; exact h.counts
  room := by rw [hl, hm]; exact h.room
  limit := by rw [hm]; exact h.limit

theorem Account.insert (h : Account all out gone lost thrown told b) (hn : all.Nodup)
    (frame : LFFrame) :
    Account (all ++ [frame]) (out ++ b.released S frame) gone
      (lost ++ if b.moves then b.counted else []) (thrown ++ if b.moves then b.uncounted else [])
      told (b.insert S frame) := by
  obtain ⟨hsort, hmax, hcase⟩ := insert_cases S b frame
  have hpassed := h.passed.push S (x := frame)
  rw [← hsort] at hpassed
  rcases hcase with ⟨hmoves, hreleased, hlist, hdrop⟩ | ⟨hmoves, hreleased, hlist, hdrop⟩
  · simp only [hmoves, hreleased, Bool.false_eq_true, if_false, List.append_nil]
    refine ⟨?_, ?_, ?_, ?_, ?_, ?_⟩
    · have hout : out ++ (SortWindow.push S defaultSortBufferMaxCount b.sortList frame).2.toList =
          out := by
        rw [released] at hreleased
        rw [hreleased, List.append_nil]
      rw [hout] at hpassed
      exact hpassed
    · rw [hlist]
      exact h.kept
    · rw [hlist]
      exact h.whole
    · rw [hdrop]
      exact h.counts
    · rw [hlist, hmax]
      exact h.room
    · rw [hmax]
      exact h.limit
  · simp only [hmoves, if_true]
    have hnodup := h.nodup hn
    refine ⟨hpassed, ?_, ?_, ?_, ?_, hmax.trans h.limit⟩
    · rw [hlist, ← List.append_assoc]
      have hsub : (gone ++ b.removeExpireFrame.list).Sublist out :=
        ((removeExpireFrame_sublist b).append_left gone).trans h.kept
      exact hsub.append_right _
    · have hperm := removeExpireFrame_perm hnodup
      have hwhole := h.whole
      rw [hlist, List.perm_iff_count] at *
      intro f
      have hf := hperm f
      have hg := hwhole f
      simp only [List.count_append] at hf hg ⊢
      omega
    · have hcounts := h.counts
      rw [hdrop, List.length_append]
      omega
    · have hlim := h.limit
      have hroom := removeExpireFrame_room hnodup (by rw [hlim]; decide) h.room
      rw [hlist, hmax, List.length_append, hreleased]
      omega

theorem Account.step (h : Account all out gone lost thrown told b)
    (hn : (all ++ b.came a).Nodup) (hs : b.step S a = some b') :
    Account (all ++ b.came a) (out ++ b.leaving S a) (gone ++ b.popped a) (lost ++ b.dropped a)
      (thrown ++ b.cleared a) (told ++ b.taken a) b' := by
  have hall : all.Nodup := (List.nodup_append.mp hn).1
  cases a with
  | appendObject frame =>
    obtain ⟨c, t, heq⟩ := appendObject_eq S b frame
    obtain rfl : (b.appendObject S frame).1 = b' := by simpa [LFStreamingBuffer.step] using hs
    have hinsert := h.insert (S := S) hall frame
    have hsame := hinsert.same (r := (b.appendObject S frame).1)
      (by rw [heq]) (by rw [heq]) (by rw [heq]) (by rw [heq])
    simpa [came, popped, taken, leaving, dropped, cleared] using hsame
  | popFirstObject =>
    obtain rfl : b.popFirstObject.1 = b' := by simpa [LFStreamingBuffer.step] using hs
    have hlist : gone ++ b.list.head?.toList ++ b.list.tail = gone ++ b.list := by
      rw [List.append_assoc]
      cases b.list <;> simp
    simp only [came, popped, taken, leaving, dropped, cleared, List.append_nil, popFirstObject]
    refine ⟨h.passed, ?_, ?_, h.counts, ?_, h.limit⟩
    · rw [hlist]
      exact h.kept
    · rw [hlist]
      exact h.whole
    · have hroom := h.room
      dsimp only
      rw [List.length_tail]
      omega
  | removeAllObject =>
    obtain rfl : b.removeAllObject = b' := by simpa [LFStreamingBuffer.step] using hs
    simp only [came, popped, taken, leaving, dropped, cleared, List.append_nil, removeAllObject]
    refine ⟨h.passed, ?_, ?_, h.counts, Nat.zero_le _, h.limit⟩
    · simpa using (List.sublist_append_left gone b.list).trans h.kept
    · have hwhole := h.whole
      rw [List.perm_iff_count] at *
      intro f
      have hf := hwhole f
      simp only [List.count_append, List.count_nil] at hf ⊢
      omega
  | takeDropFrames =>
    obtain rfl : { b with lastDropFrames := 0 } = b' := by
      simpa [LFStreamingBuffer.step] using hs
    simp only [came, popped, taken, leaving, dropped, cleared, List.append_nil]
    refine ⟨h.passed, h.kept, h.whole, ?_, h.room, h.limit⟩
    have hcounts := h.counts
    simpa using hcounts
  | tick =>
    obtain ⟨c, t, heq⟩ := b.tick_eq
    obtain rfl : b.tick.1 = b' := by simpa [LFStreamingBuffer.step] using hs
    simp only [came, popped, taken, leaving, dropped, cleared, List.append_nil]
    exact h.same (by rw [heq]) (by rw [heq]) (by rw [heq]) (by rw [heq])

theorem account_of_run {t : List Action} (h : Runs.run (step S) {} t = some b)
    (hn : (Runs.observed (step S) came {} t).Nodup) :
    Account (Runs.observed (step S) came {} t) (Runs.observed (step S) (leaving S) {} t)
      (Runs.observed (step S) popped {} t) (Runs.observed (step S) dropped {} t)
      (Runs.observed (step S) cleared {} t) (Runs.observed (step S) taken {} t) b := by
  revert hn
  refine Runs.run_induction (P := fun t b => (Runs.observed (step S) came {} t).Nodup →
    Account (Runs.observed (step S) came {} t) (Runs.observed (step S) (leaving S) {} t)
      (Runs.observed (step S) popped {} t) (Runs.observed (step S) dropped {} t)
      (Runs.observed (step S) cleared {} t) (Runs.observed (step S) taken {} t) b)
    (fun _ => Account.init) ?_ h
  intro t b a b' hrun ih hs hn
  have hc : Runs.observed (step S) came {} (t ++ [a]) = _ := Runs.observed_concat hrun a
  have hprev : (Runs.observed (step S) came {} t).Nodup := by
    rw [hc] at hn
    exact (List.nodup_append.mp hn).1
  rw [hc, Runs.observed_concat hrun, Runs.observed_concat hrun, Runs.observed_concat hrun,
    Runs.observed_concat hrun, Runs.observed_concat hrun]
  exact (ih hprev).step (hc ▸ hn) hs

/-- Seven frames, the third one late, then the socket asks for two. -/
def lateFrame : List Action :=
  [frame 0 10 (.video true none none), frame 1 20 (.audio none), frame 2 5 (.audio none),
    frame 3 30 (.video false none none), frame 4 40 (.audio none), frame 5 50 (.audio none),
    frame 6 60 (.video false none none), .popFirstObject, .popFirstObject, .tick]
where
  frame (object : Nat) (timestamp : UInt64) (kind : FrameKind) : Action :=
    .appendObject { object, timestamp, data := [], kind }

/-- Every frame that came is popped, waits in the queue or in the sorting
window, was counted as dropped, or was cleared; none twice. What the counter
shows, with what was taken from it, is the number of frames dropped, and the
queue never holds more than six hundred frames, nor the window more than five. -/
theorem frames_conserved {t : List Action} (h : Runs.run (step S) {} t = some b)
    (hn : (Runs.observed (step S) came {} t).Nodup) :
    (Runs.observed (step S) popped {} t ++ b.list ++ b.sortList ++
        (Runs.observed (step S) dropped {} t ++ Runs.observed (step S) cleared {} t)).Perm
        (Runs.observed (step S) came {} t) ∧
      (Runs.observed (step S) taken {} t).sum + b.lastDropFrames =
        (Runs.observed (step S) dropped {} t).length ∧
      b.list.length ≤ 600 ∧ b.sortList.length ≤ 5 := by
  have haccount := account_of_run h hn
  refine ⟨?_, haccount.counts, ?_, ?_⟩
  · have hwhole := haccount.whole
    have hpassed := haccount.passed.perm
    rw [List.perm_iff_count] at *
    intro f
    have hf := hwhole f
    have hg := hpassed f
    simp only [List.count_append] at hf hg ⊢
    omega
  · have hroom := haccount.room
    rw [haccount.limit] at hroom
    exact hroom
  · have hlen := haccount.passed.length_window
    have hout := haccount.passed.length_out
    simp only [defaultSortBufferMaxCount] at hout
    omega

theorem frames_conserved_lateFrame :
    ∃ b : LFStreamingBuffer,
      Runs.run (step (SortWindow.Sorter.insertion LFFrame.time)) {} lateFrame = some b ∧
      b.list.length ≤ 600 ∧ b.sortList.length ≤ 5 ∧
      (Runs.observed (step (SortWindow.Sorter.insertion LFFrame.time)) popped {} lateFrame ++
        b.list ++ b.sortList ++
          (Runs.observed (step (SortWindow.Sorter.insertion LFFrame.time)) dropped {} lateFrame ++
            Runs.observed (step (SortWindow.Sorter.insertion LFFrame.time)) cleared {}
              lateFrame)).Perm
        (Runs.observed (step (SortWindow.Sorter.insertion LFFrame.time)) came {} lateFrame) := by
  have h := frames_conserved (S := SortWindow.Sorter.insertion LFFrame.time) (t := lateFrame)
    rfl (by decide)
  exact ⟨_, rfl, h.2.2.1, h.2.2.2, h.1⟩

theorem ordered_of_run {t : List Action} (h : Runs.run (step S) {} t = some b)
    (hn : (Runs.observed (step S) came {} t).Nodup)
    (ht : SortWindow.Timely LFFrame.time 5 (Runs.observed (step S) came {} t)) :
    SortWindow.Ordered LFFrame.time (Runs.observed (step S) (leaving S) {} t) b.sortList := by
  revert hn ht
  refine Runs.run_induction (P := fun t b => (Runs.observed (step S) came {} t).Nodup →
    SortWindow.Timely LFFrame.time 5 (Runs.observed (step S) came {} t) →
    SortWindow.Ordered LFFrame.time (Runs.observed (step S) (leaving S) {} t) b.sortList)
    (fun _ _ => SortWindow.ordered_nil) ?_ h
  intro t b a b' hrun ih hs hn ht
  have hc : Runs.observed (step S) came {} (t ++ [a]) = _ := Runs.observed_concat hrun a
  have hl : Runs.observed (step S) (leaving S) {} (t ++ [a]) = _ := Runs.observed_concat hrun a
  rw [hc] at hn ht
  have hprev := (List.nodup_append.mp hn).1
  have ho := ih hprev (ht.of_isPrefix (List.prefix_append _ _))
  rw [hl]
  cases a with
  | appendObject frame =>
    have hpassed := (account_of_run hrun hprev).passed
    obtain ⟨c, q, heq⟩ := appendObject_eq S b frame
    obtain rfl : (b.appendObject S frame).1 = b' := by simpa [LFStreamingBuffer.step] using hs
    rw [heq]
    dsimp only
    rw [(insert_cases S b frame).1]
    exact ho.push S hpassed (ht _ frame List.prefix_rfl)
  | popFirstObject =>
    obtain rfl : b.popFirstObject.1 = b' := by simpa [LFStreamingBuffer.step] using hs
    simpa [leaving, popFirstObject] using ho
  | removeAllObject =>
    obtain rfl : b.removeAllObject = b' := by simpa [LFStreamingBuffer.step] using hs
    simpa [leaving, removeAllObject] using ho
  | takeDropFrames =>
    obtain rfl : { b with lastDropFrames := 0 } = b' := by
      simpa [LFStreamingBuffer.step] using hs
    simpa [leaving] using ho
  | tick =>
    obtain ⟨c, q, heq⟩ := b.tick_eq
    obtain rfl : b.tick.1 = b' := by simpa [LFStreamingBuffer.step] using hs
    rw [heq]
    simpa [leaving] using ho

/-- When no frame comes more than five places late, the socket pops the frames
in the order of their timestamps, whatever was dropped between them. -/
theorem frames_in_order {t : List Action} (h : Runs.run (step S) {} t = some b)
    (hn : (Runs.observed (step S) came {} t).Nodup)
    (ht : SortWindow.Timely LFFrame.time 5 (Runs.observed (step S) came {} t)) :
    (Runs.observed (step S) popped {} t ++ b.list).Pairwise (·.time ≤ ·.time) :=
  (ordered_of_run h hn ht).sorted.sublist (account_of_run h hn).kept

theorem frames_in_order_lateFrame :
    ∃ b : LFStreamingBuffer,
      Runs.run (step (SortWindow.Sorter.insertion LFFrame.time)) {} lateFrame = some b ∧
      (Runs.observed (step (SortWindow.Sorter.insertion LFFrame.time)) popped {} lateFrame ++
        b.list).Pairwise (·.time ≤ ·.time) := by
  refine ⟨_, rfl, frames_in_order rfl (by decide) ?_⟩
  rw [SortWindow.timely_iff]
  decide

/-! ### What the delegate is told -/

/-- What a tick samples. -/
def sampled (b : LFStreamingBuffer) : Action → List Nat
  | .appendObject _ => if b.startTimer then [] else [b.list.length]
  | .tick => [b.list.length]
  | _ => []

/-- What the delegate is told at a step. -/
def reported (S : SortWindow.Sorter LFFrame.time) (b : LFStreamingBuffer) :
    Action → List LFLiveBuffferState
  | .appendObject frame => (b.appendObject S frame).2.toList
  | .tick => b.tick.2.toList
  | _ => []

/-- The trend of a round of samples: the queue grew at every one of them, or it
was empty at all of them. -/
def trend (round : List Nat) : Option LFLiveBuffferState :=
  if (0 :: round).IsChain (· < ·) then some .increase
  else if ∀ n ∈ round, n = 0 then some .decline
  else none

theorem countSamples_length (c : Nat) (round : List Nat) :
    (countSamples c round).1 + (countSamples c round).2 = round.length := by
  induction round generalizing c with
  | nil => rfl
  | cons n rest ih =>
    have hrest := ih n
    by_cases hcn : c < n
    · simp [countSamples, hcn]
      omega
    · simp [countSamples, hcn]
      omega

theorem countSamples_rising (c : Nat) (round : List Nat) :
    (countSamples c round).1 = round.length ↔ (c :: round).IsChain (· < ·) := by
  induction round generalizing c with
  | nil => simp [countSamples]
  | cons n rest ih =>
    have hlen := countSamples_length n rest
    rw [List.isChain_cons_cons, ← ih n]
    by_cases hcn : c < n
    · simp [countSamples, hcn]
    · simp [countSamples, hcn]
      omega

theorem countSamples_falling (c : Nat) (round : List Nat) :
    (countSamples c round).2 = round.length ↔ (c :: round).IsChain (· ≥ ·) := by
  induction round generalizing c with
  | nil => simp [countSamples]
  | cons n rest ih =>
    have hlen := countSamples_length n rest
    rw [List.isChain_cons_cons, ← ih n]
    by_cases hcn : c < n
    · simp [countSamples, hcn]
      omega
    · have hge : c ≥ n := by omega
      simp [countSamples, hcn, hge]

/-- From zero, samples that never rise are all zero. -/
theorem isChain_ge_zero (round : List Nat) :
    (0 :: round).IsChain (· ≥ ·) ↔ ∀ n ∈ round, n = 0 := by
  induction round with
  | nil => simp
  | cons n rest ih =>
    rw [List.isChain_cons_cons, List.forall_mem_cons]
    constructor
    · rintro ⟨hn, hrest⟩
      obtain rfl : n = 0 := by omega
      exact ⟨rfl, ih.mp hrest⟩
    · rintro ⟨rfl, hrest⟩
      exact ⟨Nat.le_refl 0, ih.mpr hrest⟩

/-- What is told after a full round is its trend. -/
theorem currentBufferState_eq (hlen : b.thresholdList.length = b.callBackInterval) :
    (match b.currentBufferState with
      | .increase => some LFLiveBuffferState.increase
      | .decline => some .decline
      | .unknown => none) = trend b.thresholdList := by
  have hsum := countSamples_length 0 b.thresholdList
  have hup := countSamples_rising 0 b.thresholdList
  have hdown := countSamples_falling 0 b.thresholdList
  rw [isChain_ge_zero] at hdown
  have hrise : b.callBackInterval ≤ (countSamples 0 b.thresholdList).1 ↔
      (0 :: b.thresholdList).IsChain (· < ·) := by
    rw [← hup]
    omega
  have hfall : b.callBackInterval ≤ (countSamples 0 b.thresholdList).2 ↔
      ∀ n ∈ b.thresholdList, n = 0 := by
    rw [← hdown]
    omega
  simp only [currentBufferState, trend, hrise, hfall]
  by_cases hgrow : (0 :: b.thresholdList).IsChain (· < ·)
  · simp [hgrow]
  · by_cases hempty : ∀ n ∈ b.thresholdList, n = 0
    · simp [hgrow, if_pos hempty]
    · simp [hgrow, if_neg hempty]

/-- The rounds of five samples that are over, and the samples of the next. -/
structure Rounds (samples : List Nat) (told : List LFLiveBuffferState)
    (rounds : List (List Nat)) (b : LFStreamingBuffer) : Prop where
  full : ∀ round ∈ rounds, round.length = 5
  samples_eq : samples = rounds.flatten ++ b.thresholdList
  told_eq : told = rounds.filterMap trend
  interval : b.thresholdList.length = b.currentInterval
  started : b.currentInterval < 5
  every : b.updateInterval = 1
  after : b.callBackInterval = 5

variable {samples : List Nat} {said : List LFLiveBuffferState} {rounds : List (List Nat)}

/-- A step that takes no sample. -/
theorem Rounds.same (h : Rounds samples said rounds b)
    (ht : b'.thresholdList = b.thresholdList) (hc : b'.currentInterval = b.currentInterval)
    (hu : b'.updateInterval = b.updateInterval) (hcb : b'.callBackInterval = b.callBackInterval) :
    Rounds samples said rounds b' where
  full := h.full
  samples_eq := by rw [ht]; exact h.samples_eq
  told_eq := h.told_eq
  interval := by rw [ht, hc]; exact h.interval
  started := by rw [hc]; exact h.started
  every := by rw [hu]; exact h.every
  after := by rw [hcb]; exact h.after

theorem Rounds.tick (h : Rounds samples said rounds b) :
    ∃ rounds', Rounds (samples ++ [b.list.length]) (said ++ b.tick.2.toList) rounds' b.tick.1 := by
  have hinterval := h.interval
  have hstarted := h.started
  by_cases hover : b.currentInterval + 1 = 5
  · -- The fifth sample ends the round.
    refine ⟨rounds ++ [b.thresholdList ++ [b.list.length]], ?_⟩
    have hlen : (b.thresholdList ++ [b.list.length]).length = 5 := by
      rw [List.length_append, List.length_singleton]
      omega
    have hstate := currentBufferState_eq (b := { b with
      currentInterval := b.currentInterval + b.updateInterval
      thresholdList := b.thresholdList ++ [b.list.length] }) (by simpa [h.after] using hlen)
    have htick : b.tick =
        ({ b with currentInterval := 0, thresholdList := [] },
          trend (b.thresholdList ++ [b.list.length])) := by
      rw [← hstate]
      simp [LFStreamingBuffer.tick, h.after, h.every, hover]
    rw [htick]
    refine ⟨?_, ?_, ?_, rfl, Nat.zero_lt_succ 4, h.every, h.after⟩
    · intro round hround
      rcases List.mem_append.mp hround with hround | hround
      · exact h.full round hround
      · obtain rfl : round = b.thresholdList ++ [b.list.length] := by simpa using hround
        exact hlen
    · simp [h.samples_eq]
    · rw [h.told_eq, List.filterMap_append]
      cases htrend : trend (b.thresholdList ++ [b.list.length]) <;> simp [htrend]
  · refine ⟨rounds, ?_⟩
    have hnot : ¬ 5 ≤ b.currentInterval + 1 := by omega
    have htick : b.tick =
        ({ b with
            currentInterval := b.currentInterval + 1
            thresholdList := b.thresholdList ++ [b.list.length] }, none) := by
      simp [LFStreamingBuffer.tick, h.after, h.every, hnot]
    rw [htick]
    refine ⟨h.full, ?_, ?_, ?_, ?_, h.every, h.after⟩
    · simp [h.samples_eq]
    · simpa using h.told_eq
    · simpa using hinterval
    · dsimp only
      omega

theorem Rounds.step (h : Rounds samples said rounds b) (hs : b.step S a = some b') :
    ∃ rounds', Rounds (samples ++ b.sampled a) (said ++ reported S b a) rounds' b' := by
  cases a with
  | appendObject frame =>
    obtain rfl : (b.appendObject S frame).1 = b' := by simpa [LFStreamingBuffer.step] using hs
    by_cases hstarted : b.startTimer = true
    · refine ⟨rounds, ?_⟩
      have hsame := insert_same S b frame
      have happend : b.appendObject S frame = (b.insert S frame, none) := by
        simp [appendObject, hstarted]
      simp only [sampled, reported, hstarted, if_true, happend, List.append_nil,
        Option.toList_none]
      exact h.same hsame.1 hsame.2.1 hsame.2.2.1 hsame.2.2.2
    · -- The first frame starts the timer, whose first tick samples at once.
      have hfirst : Rounds samples said rounds { b with startTimer := true } :=
        h.same rfl rfl rfl rfl
      obtain ⟨rounds', htick⟩ := hfirst.tick
      refine ⟨rounds', ?_⟩
      have hsame := insert_same S { b with startTimer := true }.tick.1 frame
      have happend : b.appendObject S frame =
          ({ b with startTimer := true }.tick.1.insert S frame,
            { b with startTimer := true }.tick.2) := by
        simp [appendObject, hstarted]
      simp only [sampled, reported, hstarted, Bool.false_eq_true, if_false, happend]
      exact htick.same hsame.1 hsame.2.1 hsame.2.2.1 hsame.2.2.2
  | popFirstObject =>
    obtain rfl : b.popFirstObject.1 = b' := by simpa [LFStreamingBuffer.step] using hs
    simp only [sampled, reported, List.append_nil]
    exact ⟨rounds, h.same rfl rfl rfl rfl⟩
  | removeAllObject =>
    obtain rfl : b.removeAllObject = b' := by simpa [LFStreamingBuffer.step] using hs
    simp only [sampled, reported, List.append_nil]
    exact ⟨rounds, h.same rfl rfl rfl rfl⟩
  | takeDropFrames =>
    obtain rfl : { b with lastDropFrames := 0 } = b' := by
      simpa [LFStreamingBuffer.step] using hs
    simp only [sampled, reported, List.append_nil]
    exact ⟨rounds, h.same rfl rfl rfl rfl⟩
  | tick =>
    obtain rfl : b.tick.1 = b' := by simpa [LFStreamingBuffer.step] using hs
    exact h.tick

/-- The samples of a run fall into rounds of five, and the delegate is told the
trend of each finished round: that the queue grew if every sample was above the
one before and the first above zero, that it shrank only if all five found the
queue empty, and nothing otherwise. -/
theorem trends_reported {t : List Action} (h : Runs.run (step S) {} t = some b) :
    ∃ rounds : List (List Nat), (∀ round ∈ rounds, round.length = 5) ∧
      Runs.observed (step S) sampled {} t = rounds.flatten ++ b.thresholdList ∧
      b.thresholdList.length < 5 ∧
      Runs.observed (step S) (reported S) {} t = rounds.filterMap trend := by
  have hrounds : ∃ rounds, Rounds (Runs.observed (step S) sampled {} t)
      (Runs.observed (step S) (reported S) {} t) rounds b := by
    refine Runs.run_induction (P := fun t b => ∃ rounds,
      Rounds (Runs.observed (step S) sampled {} t)
        (Runs.observed (step S) (reported S) {} t) rounds b) ?_ ?_ h
    · exact ⟨[], by simp, rfl, rfl, rfl, Nat.zero_lt_succ 4, rfl, rfl⟩
    · intro t b a b' hrun ih hs
      obtain ⟨rounds, hrounds⟩ := ih
      rw [Runs.observed_concat hrun, Runs.observed_concat hrun]
      exact hrounds.step hs
  obtain ⟨rounds, hrounds⟩ := hrounds
  refine ⟨rounds, hrounds.full, hrounds.samples_eq, ?_, hrounds.told_eq⟩
  rw [hrounds.interval]
  exact hrounds.started

/-- Five seconds of an empty queue. -/
def idle : List Action := [.tick, .tick, .tick, .tick, .tick]

theorem trends_reported_idle :
    ∃ b : LFStreamingBuffer, ∃ rounds : List (List Nat),
      Runs.run (step (SortWindow.Sorter.insertion LFFrame.time)) {} idle = some b ∧
      Runs.observed (step (SortWindow.Sorter.insertion LFFrame.time))
        (reported (SortWindow.Sorter.insertion LFFrame.time)) {} idle = rounds.filterMap trend := by
  obtain ⟨rounds, -, -, -, htold⟩ :=
    trends_reported (S := SortWindow.Sorter.insertion LFFrame.time) (t := idle) rfl
  exact ⟨_, rounds, rfl, htold⟩

end LFStreamingBuffer

end WaxxyLive.LiveKit
