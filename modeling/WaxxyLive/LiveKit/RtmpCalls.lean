import WaxxyLive.LiveKit.RtmpInvoke
import WaxxyLive.LiveKit.AmfRoundTrip

/-!
# The calls of a publisher

A body that the library builds for a call is made of the call's values, and a
server that decodes it finds these values and no others.
-/

namespace WaxxyLive.Rtmp

open Bytes Amf

/-! ## Calls -/

/-- A call of the publisher as a server understands it. -/
inductive Call where
  | connect
  | releaseStream
  | fcPublish
  | createStream
  | publish (streamId : Int)
  | fcUnpublish
  | deleteStream (streamId : Int)
  | checkBW
  | checkBWResult (counter : Int)
  | pong

namespace Call

def name : Call → List UInt8
  | connect => av "connect"
  | releaseStream => av "releaseStream"
  | fcPublish => av "FCPublish"
  | createStream => av "createStream"
  | publish _ => av "publish"
  | fcUnpublish => av "FCUnpublish"
  | deleteStream _ => av "deleteStream"
  | checkBW => av "_checkbw"
  | checkBWResult _ => av "_result"
  | pong => av "pong"

/-- What follows the name and the number. -/
def args (link : RTMPLink) : Call → List AMFValue
  | connect => [.object ((RTMP.connectFields link).map fun field => (field.1, .string field.2))]
  | releaseStream | fcPublish | fcUnpublish => [.null, .string link.playpath]
  | createStream | checkBW | pong => [.null]
  | publish _ => [.null, .string link.playpath, .string (av "live")]
  | deleteStream streamId => [.null, .number (Binary64.ofInt streamId)]
  | checkBWResult counter => [.null, .number (Binary64.ofInt counter)]

def message (link : RTMPLink) (txn : Int) (call : Call) : List AMFValue :=
  .string call.name :: .number (Binary64.ofInt txn) :: call.args link

/-- The stream that a call is sent on. -/
def onStream : Call → Int
  | publish streamId => streamId
  | _ => 0

/-- Calls that only answer the server. -/
def isReply : Call → Bool
  | checkBW | checkBWResult _ | pong => true
  | _ => false

theorem length_name (call : Call) : call.name.length < 65536 := by
  cases call <;> exact of_decide_eq_true rfl

end Call

/-- The range of an `int`. -/
def IsInt (n : Int) : Prop := -2 ^ 31 ≤ n ∧ n < 2 ^ 31

theorem isInt_bmod (n : Int) : IsInt (n.bmod (2 ^ 32)) := by
  have hpos : 0 < 2 ^ 32 := by decide
  have hle := @Int.le_bmod n (2 ^ 32) hpos
  have hlt := @Int.bmod_lt n (2 ^ 32) hpos
  constructor <;> omega

theorem isInt_of_castInt {number : UInt64} {n : Int} (h : castInt number = some n) : IsInt n := by
  unfold castInt at h
  cases htrunc : Binary64.truncate number with
  | none => simp [htrunc] at h
  | some m =>
    rw [htrunc] at h
    dsimp only at h
    split at h
    · exact Option.some.inj h ▸ ‹_›
    · cases h

theorem castInt_ofInt {n : Int} (h : IsInt n) : castInt (Binary64.ofInt n) = some n := by
  have hlt : n.natAbs < 2 ^ 53 := by
    obtain ⟨hlow, hhigh⟩ := h
    omega
  rw [castInt, Binary64.truncate_ofInt hlt]
  exact if_pos h

/-- No integer looks like an end mark. -/
theorem not_looksEnd_ofInt {n : Int} (h : IsInt n) : ¬LooksEnd (.number (Binary64.ofInt n)) := by
  have hlt : n.natAbs < 2 ^ 53 := by
    obtain ⟨hlow, hhigh⟩ := h
    omega
  show (Binary64.ofInt n).toNat / 2 ^ 48 ≠ 9
  rw [Binary64.toNat_ofInt hlt]
  by_cases hzero : n = 0
  · simp [hzero, Binary64.ofNat]
  · have hle := Binary64.le_ofNat (Int.natAbs_ne_zero.mpr hzero) hlt
    omega

/-! ## Bodies -/

theorem length_of_encodeString {pBufEnd : Nat} {out bv res : List UInt8}
    (h : encodeString pBufEnd out bv = some res) : out.length + bv.length + 5 ≤ pBufEnd := by
  unfold encodeString at h
  split at h
  · cases h
  · omega

theorem callBody_eq_some {size : Nat} {name body : List UInt8} {txn : Int}
    {rest : List UInt8 → Option (List UInt8)} (h : callBody size name txn rest = some body) :
    rest ([AMFValue.string name, .number (Binary64.ofInt txn)].flatMap valueBytes) = some body := by
  obtain ⟨enc, henc, h⟩ := Option.bind_eq_some_iff.mp h
  obtain ⟨enc', henc', h⟩ := Option.bind_eq_some_iff.mp h
  rw [encodeNumber_eq_some henc', encodeString_eq_some henc] at h
  simpa using h

/-- A packet that carries a call: its bytes are the call's values, and a server
can tell where each one ends. -/
structure Carries (link : RTMPLink) (call : Call) (p : RTMPPacket) : Prop where
  packetType : p.packetType = 0x14
  nInfoField2 : p.nInfoField2 = UInt32.ofInt call.onStream
  body : ∃ txn, IsInt txn ∧ p.body = (call.message link txn).flatMap valueBytes
  fits : ∀ v ∈ call.args link, Fits False v ∧ ¬LooksEnd v

variable {link : RTMPLink} {call : Call} {p : RTMPPacket}

theorem Carries.message (h : Carries link call p) {txn : Int} (htxn : IsInt txn) :
    ∀ v ∈ call.message link txn, Fits False v ∧ ¬LooksEnd v := by
  have hname := call.length_name
  intro v hv
  rcases List.mem_cons.mp hv with rfl | hv
  · exact ⟨show _ < 2 ^ 31 by omega, nofun⟩
  · rcases List.mem_cons.mp hv with rfl | hv
    · exact ⟨trivial, not_looksEnd_ofInt htxn⟩
    · exact h.fits v hv

theorem Carries.decode_message (h : Carries link call p) {txn : Int} (htxn : IsInt txn)
    (hbody : p.body = (call.message link txn).flatMap valueBytes) :
    Amf.decode p.body false = .ok ((call.message link txn).map (Prod.mk [])) := by
  rw [hbody]
  exact (decodeLoop_values (fun v hv => (h.message htxn v hv).1) (by omega)).mpr
    fun v hv => (h.message htxn v hv).2

/-- The server reads the call. -/
theorem Carries.decode (h : Carries link call p) :
    ∃ txn, IsInt txn ∧
      Amf.decode p.body false = .ok ((call.message link txn).map (Prod.mk [])) := by
  obtain ⟨txn, htxn, hbody⟩ := h.body
  exact ⟨txn, htxn, h.decode_message htxn hbody⟩

/-- The library reads the name and the number of its own call. -/
theorem Carries.methodOf_eq {txn : Int} (htxn : IsInt txn)
    (hbody : p.body = (call.message link txn).flatMap valueBytes) :
    methodOf p.body = ⟨call.name, txn⟩ := by
  have hdrop : p.body.drop 1 = encodeInt16 call.name.length ++ (call.name ++
      (amfNumber :: (be 8 (Binary64.ofInt txn).toNat ++ (call.args link).flatMap valueBytes))) := by
    rw [hbody, Call.message, List.flatMap_cons, List.flatMap_cons, valueBytes, valueBytes,
      if_pos call.length_name]
    simp
  have hname : (p.body.drop 1).drop 2 = call.name ++
      (amfNumber :: (be 8 (Binary64.ofInt txn).toNat ++ (call.args link).flatMap valueBytes)) := by
    rw [hdrop, encodeInt16, List.drop_left' (length_be 2 _)]
  have hnumber : (p.body.drop 1).drop (3 + call.name.length) =
      be 8 (Binary64.ofInt txn).toNat ++ (call.args link).flatMap valueBytes := by
    have hadd : 3 + call.name.length = 2 + (call.name.length + 1) := by omega
    rw [hadd, ← List.drop_drop, hname, ← List.drop_drop, List.drop_left, List.drop_one,
      List.tail_cons]
  have hlength : decodeInt16 (p.body.drop 1) = call.name.length := by
    rw [hdrop, decodeInt16_encodeInt16 call.length_name]
  unfold methodOf
  dsimp only
  rw [hlength, hname, hnumber, List.take_left, decodeNumber_bytes, castInt_ofInt htxn,
    Option.getD_some]

theorem Carries.methodOf_body (h : Carries link call p) : (methodOf p.body).name = call.name := by
  obtain ⟨txn, htxn, hbody⟩ := h.body
  rw [Carries.methodOf_eq htxn hbody]

section Bodies

variable {body : List UInt8} {txn : Int} {nChannel headerType : Nat} {nTimeStamp : UInt32}

theorem carries_of_body (htxn : IsInt txn)
    (hbody : body = (call.message link txn).flatMap valueBytes)
    (hargs : ∀ v ∈ call.args link, Fits False v ∧ ¬LooksEnd v) :
    Carries link call
      (invokePacket nChannel headerType nTimeStamp (UInt32.ofInt call.onStream) body) :=
  ⟨rfl, rfl, ⟨txn, htxn, hbody⟩, hargs⟩

/-- A call with nothing but a null. -/
theorem carries_null {size : Nat} (hargs : call.args link = [.null]) (htxn : IsInt txn)
    (h : callBody size call.name txn (fun enc => some (enc ++ [amfNull])) = some body) :
    Carries link call
      (invokePacket nChannel headerType nTimeStamp (UInt32.ofInt call.onStream) body) := by
  have henc := callBody_eq_some h
  refine carries_of_body htxn ?_ ?_
  · rw [← Option.some.inj henc, Call.message, hargs]
    simp [valueBytes]
  · rw [hargs]
    simp [Fits, LooksEnd]

/-- A call with a null and a number. -/
theorem carries_number {size : Nat} {n : Int}
    (hargs : call.args link = [.null, .number (Binary64.ofInt n)]) (htxn : IsInt txn) (hn : IsInt n)
    (h : callBody size call.name txn (fun enc =>
      encodeNumber (bodyRoom size) (enc ++ [amfNull]) (Binary64.ofInt n)) = some body) :
    Carries link call
      (invokePacket nChannel headerType nTimeStamp (UInt32.ofInt call.onStream) body) := by
  have henc := callBody_eq_some h
  refine carries_of_body htxn ?_ ?_
  · rw [encodeNumber_eq_some henc, Call.message, hargs]
    simp [valueBytes]
  · rw [hargs]
    simp [Fits, LooksEnd]
    exact not_looksEnd_ofInt hn

/-- A call with a null and the playpath. -/
theorem carries_playpath (hargs : call.args link = [.null, .string link.playpath])
    (htxn : IsInt txn)
    (h : callBody 1024 call.name txn (fun enc =>
      encodeString (bodyRoom 1024) (enc ++ [amfNull]) link.playpath) = some body) :
    Carries link call
      (invokePacket nChannel headerType nTimeStamp (UInt32.ofInt call.onStream) body) := by
  have henc := callBody_eq_some h
  have hlength := length_of_encodeString henc
  refine carries_of_body htxn ?_ ?_
  · rw [encodeString_eq_some henc, Call.message, hargs]
    simp [valueBytes]
  · rw [hargs]
    simp only [bodyRoom] at hlength
    simp [Fits, LooksEnd]
    omega

theorem carries_publish {streamId : Int} (htxn : IsInt txn)
    (h : callBody 1024 (av "publish") txn (fun enc =>
      (encodeString (bodyRoom 1024) (enc ++ [amfNull]) link.playpath).bind fun enc =>
        encodeString (bodyRoom 1024) enc (av "live")) = some body) :
    Carries link (.publish streamId)
      (invokePacket nChannel headerType nTimeStamp (UInt32.ofInt streamId) body) := by
  obtain ⟨enc, henc, h⟩ := Option.bind_eq_some_iff.mp (callBody_eq_some h)
  have hlength := length_of_encodeString henc
  refine carries_of_body htxn ?_ ?_
  · rw [encodeString_eq_some h, encodeString_eq_some henc]
    simp [Call.message, Call.args, Call.name, valueBytes]
  · simp only [bodyRoom] at hlength
    simp only [Call.args, List.forall_mem_cons, Fits, LooksEnd, av, List.length_map]
    exact ⟨⟨trivial, not_false⟩, ⟨by omega, not_false⟩, ⟨by decide, not_false⟩,
      List.forall_mem_nil _⟩

theorem encodeFields_eq_some {fields : List (List UInt8 × List UInt8)} {enc res : List UInt8}
    (hnames : ∀ field ∈ fields, field.1 ≠ [] ∧ field.1.length < 65536)
    (h : RTMP.encodeFields enc fields = some res) :
    res = enc ++ propsBytes (fields.map fun field => (field.1, .string field.2)) ∧
      FitProps False (fields.map fun field => (field.1, .string field.2)) := by
  induction fields generalizing enc with
  | nil =>
    obtain rfl := Option.some.inj h
    exact ⟨by simp [propsBytes], trivial⟩
  | cons field more ih =>
    obtain ⟨hfield, hmore⟩ := List.forall_mem_cons.mp hnames
    obtain ⟨enc', henc', h⟩ := Option.bind_eq_some_iff.mp h
    obtain ⟨enc'', henc'', hvalue⟩ := Option.bind_eq_some_iff.mp henc'
    have hlength := length_of_encodeString hvalue
    have hname : enc'' = enc ++ (encodeInt16 field.1.length ++ field.1) := by
      unfold encodeStrName at henc''
      split at henc''
      · cases henc''
      · exact (Option.some.inj henc'').symm
    obtain ⟨rfl, hfits⟩ := ih hmore h
    refine ⟨?_, hfield.1, hfield.2, nofun, ?_, hfits⟩
    · rw [encodeString_eq_some hvalue, hname, List.map_cons, propsBytes]
      simp
    · simp only [bodyRoom] at hlength
      show field.2.length < 2 ^ 31
      omega

theorem connectFields_names (link : RTMPLink) :
    ∀ field ∈ RTMP.connectFields link, field.1 ≠ [] ∧ field.1.length < 65536 := by
  have hnames : ∀ name ∈ [av "app", av "type", av "flashVer", av "swfUrl", av "tcUrl"],
      name ≠ [] ∧ name.length < 65536 := by decide
  intro field hfield
  apply hnames
  rcases List.mem_append.mp hfield with hmem | hmem
  · rcases List.mem_cons.mp hmem with rfl | hmem
    · simp
    · simp [List.mem_singleton.mp hmem]
  · have hmem := (List.mem_filter.mp hmem).1
    simp only [List.mem_cons, List.not_mem_nil, or_false] at hmem
    rcases hmem with rfl | rfl | rfl <;> simp

theorem carries_connect (htxn : IsInt txn)
    (h : callBody 4096 (av "connect") txn (fun enc =>
      (RTMP.encodeFields (enc ++ [amfObject]) (RTMP.connectFields link)).bind fun enc =>
        if bodyRoom 4096 ≤ enc.length + 3 then none
        else some (enc ++ encodeInt24 amfObjectEnd)) = some body) :
    Carries link .connect (invokePacket nChannel headerType nTimeStamp 0 body) := by
  obtain ⟨enc, henc, h⟩ := Option.bind_eq_some_iff.mp (callBody_eq_some h)
  obtain ⟨rfl, hfits⟩ := encodeFields_eq_some (connectFields_names link) henc
  refine carries_of_body htxn ?_ ?_
  · split at h
    · cases h
    · rw [← Option.some.inj h]
      simp [Call.message, Call.args, Call.name, valueBytes]
  · simp only [Call.args, List.forall_mem_cons, Fits, LooksEnd]
    exact ⟨⟨hfits, not_false⟩, List.forall_mem_nil _⟩

end Bodies

end WaxxyLive.Rtmp
