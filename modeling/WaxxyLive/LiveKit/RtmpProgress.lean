import Mathlib.Data.List.TakeWhile
import WaxxyLive.LiveKit.RtmpHandshake

/-!
# A server that answers

When every write succeeds, a server that answers the call it was asked last gets
the publisher to publish: three answers are enough, whatever other messages the
server sends between them.
-/

namespace WaxxyLive.Rtmp

open Bytes Amf

/-! ## The server's side -/

/-- The calls that a server has to answer. -/
def awaited : List (List UInt8) := [av "connect", av "createStream", av "publish"]

/-- The name and the number that a server reads in a packet. -/
def readCall (p : RTMPPacket) : Option Method :=
  if p.packetType = 0x14 then
    match decode p.body false with
    | .ok ((_, .string name) :: (_, .number num) :: _) => (castInt num).map (Method.mk name)
    | _ => none
  else none

/-- The last call that got through and has to be answered. -/
def asked (wire : List Sent) : Option Method :=
  ((((received wire).map Sent.packet).filterMap readCall).filter fun m => m.name ∈ awaited).getLast?

/-- The bytes of the call in a message. -/
def invokeOf (packetType : UInt8) (body : List UInt8) : Option (List UInt8) :=
  if packetType = 0x14 then some body
  else if packetType = 0x11 then some (body.drop 1)
  else none

/-- The call in a message, as `HandleInvoke` reads it. -/
def heard (packetType : UInt8) (body : List UInt8) : Option (List UInt8 × AMFObject) :=
  (invokeOf packetType body).bind fun call =>
    if call.head? = some amfString then
      match decode call false with
      | .ok obj => ((RTMP.getProp obj 0).bind RTMP.getString).map fun method => (method, obj)
      | .error _ => none
    else none

/-- The stream that the answer to `createStream` names. -/
def streamOf (obj : AMFObject) : Option Int :=
  ((RTMP.getProp obj 3).bind RTMP.getNumber).bind castInt

/-- A message that a server that means well sends while `m` has to be answered: it
calls nothing that ends the connection or says what became of the stream, it
gives pings a number, and the answer to `createStream` names a stream. -/
inductive Serves (m : Method) (packetType : UInt8) (body : List UInt8) : Prop
  | empty (h : body = [])
  | other (h : invokeOf packetType body = none)
      (hbw : packetType.toNat ∈ [0x05, 0x06] → 4 ≤ body.length)
  | garbled {call : List UInt8} (h : invokeOf packetType body = some call) (hne : call ≠ [])
      (hbad : call.head? ≠ some amfString ∨ decode call false = .error .failed)
  | call {method : List UInt8} {obj : AMFObject} (h : heard packetType body = some (method, obj))
      (hmethod : method ∉ [av "_result", av "onFCUnsubscribe", av "close", av "onStatus"])
      (htxn : method ∈ [av "ping", av "_onbwcheck"] → (RTMP.txnOf obj).isSome)
  | result {obj : AMFObject} {txn : Int} (h : heard packetType body = some (av "_result", obj))
      (htxn : RTMP.txnOf obj = some txn)
      (hid : txn = m.num → m.name = av "createStream" → (streamOf obj).isSome)

/-- The result of the call that had to be answered, if `a` is one. -/
def answer (r : RTMP) : RTMP.Arrival → List AMFObject
  | .packet _ _ packetType body =>
    match asked r.wire, heard packetType body with
    | some m, some (method, obj) =>
      if method = av "_result" ∧ RTMP.txnOf obj = some m.num then [obj] else []
    | _, _ => []
  | .chunk _ | .readFailed _ _ => []

/-! ## Room for the calls -/

/-- The calls with the link's texts fit into their buffers. -/
structure Fitting (link : RTMPLink) : Prop where
  connect : ((RTMP.connectFields link).map fun field =>
    field.1.length + field.2.length + 5).sum ≤ 4054
  playpath : link.playpath.length ≤ 974

theorem encodeString_of_room {pBufEnd : Nat} {out bv : List UInt8}
    (h : out.length + bv.length + 5 ≤ pBufEnd) (hshort : bv.length < 65536) :
    encodeString pBufEnd out bv = some (out ++ amfString :: (encodeInt16 bv.length ++ bv)) := by
  unfold encodeString
  rw [if_neg (by omega), if_pos hshort]

theorem length_encodeInt16 (n : Nat) : (encodeInt16 n).length = 2 := length_be 2 n

theorem callBody_of_room {size : Nat} {name : List UInt8} {txn : Int}
    {rest : List UInt8 → Option (List UInt8)} (h : name.length + 12 ≤ bodyRoom size)
    (hshort : name.length < 65536) :
    ∃ enc, enc.length = name.length + 12 ∧ callBody size name txn rest = rest enc := by
  obtain ⟨out, hout, hlength⟩ : ∃ out, encodeString (bodyRoom size) [] name = some out ∧
      out.length = name.length + 3 := by
    refine ⟨_, encodeString_of_room (by simp; omega) hshort, ?_⟩
    simp [length_encodeInt16]
    omega
  have hnumber : encodeNumber (bodyRoom size) out (Binary64.ofInt txn) =
      some (out ++ amfNumber :: be 8 (Binary64.ofInt txn).toNat) := by
    rw [encodeNumber, if_neg (by omega)]
  refine ⟨out ++ amfNumber :: be 8 (Binary64.ofInt txn).toNat, by simp [hlength], ?_⟩
  rw [callBody, hout, Option.bind_some, hnumber, Option.bind_some]

theorem encodeFields_of_room {fields : List (List UInt8 × List UInt8)} {enc : List UInt8}
    (h : enc.length + (fields.map fun field => field.1.length + field.2.length + 5).sum + 2 ≤
      bodyRoom 4096) :
    ∃ res, RTMP.encodeFields enc fields = some res ∧ res.length =
      enc.length + (fields.map fun field => field.1.length + field.2.length + 5).sum := by
  induction fields generalizing enc with
  | nil => exact ⟨enc, rfl, by simp⟩
  | cons field more ih =>
    simp only [List.map_cons, List.sum_cons] at h ⊢
    have hroom : bodyRoom 4096 = 4078 := rfl
    have hname : encodeStrName (bodyRoom 4096) enc field.1 =
        some (enc ++ (encodeInt16 field.1.length ++ field.1)) := by
      rw [encodeStrName, if_neg (by omega)]
    have hlength : (enc ++ (encodeInt16 field.1.length ++ field.1)).length =
        enc.length + field.1.length + 2 := by
      simp [length_encodeInt16]
      omega
    have hvalue := @encodeString_of_room (bodyRoom 4096)
      (enc ++ (encodeInt16 field.1.length ++ field.1)) field.2 (by omega) (by omega)
    obtain ⟨res, hres, hres_length⟩ := @ih
      ((enc ++ (encodeInt16 field.1.length ++ field.1)) ++
        amfString :: (encodeInt16 field.2.length ++ field.2)) (by
      simp only [List.length_append, List.length_cons, length_encodeInt16] at hlength ⊢
      omega)
    refine ⟨res, ?_, ?_⟩
    · show (encodeNamedString _ _ _ _).bind _ = _
      rw [encodeNamedString, hname, Option.bind_some, hvalue, Option.bind_some]
      exact hres
    · rw [hres_length]
      simp only [List.length_append, List.length_cons, length_encodeInt16]
      omega

/-! ## A session whose writes all succeed -/

/-- An open session that has made the first `k` calls of its handshake and waits
for the results of `pending`. -/
structure Steady (link : RTMPLink) (k : Nat) (pending : List Method) (r : RTMP) : Prop where
  sent : ∃ calls, Wire link calls r ∧
    (calls.filter fun call => !call.isReply) = (handshake r.streamId).take k
  connected : r.connected = true
  network : r.network = []
  whole : ∀ sent ∈ r.wire, sent.isWhole
  methodCalls : r.methodCalls = pending

variable {link : RTMPLink} {call : Call} {p : RTMPPacket} {r : RTMP} {k : Nat}
  {pending : List Method} {queue reports : Bool}

/-- A server reads the name and the number that the session waits for. -/
theorem Carries.readCall_eq (h : Carries link call p) :
    readCall p = some (methodOf p.body) ∧ (methodOf p.body).name = call.name := by
  obtain ⟨txn, htxn, hbody⟩ := h.body
  rw [Carries.methodOf_eq htxn hbody]
  refine ⟨?_, rfl⟩
  unfold readCall
  rw [if_pos h.packetType, h.decode_message htxn hbody]
  show (castInt (Binary64.ofInt txn)).map (Method.mk call.name) = _
  rw [castInt_ofInt htxn, Option.map_some]

theorem whole_append {wire : List Sent} (h : ∀ sent ∈ wire, sent.isWhole) (p : RTMPPacket) :
    ∀ sent ∈ wire ++ [.whole p], sent.isWhole := by
  intro sent hsent
  rcases List.mem_append.mp hsent with hsent | hsent
  · exact h sent hsent
  · rw [List.mem_singleton.mp hsent]
    rfl

theorem received_of_whole {wire : List Sent} (h : ∀ sent ∈ wire, sent.isWhole) :
    received wire = wire :=
  List.takeWhile_eq_self_iff.mpr h

theorem asked_append {wire : List Sent} (h : ∀ sent ∈ wire, sent.isWhole) (p : RTMPPacket) :
    asked (wire ++ [.whole p]) =
      match readCall p with
      | some m => if m.name ∈ awaited then some m else asked wire
      | none => asked wire := by
  unfold asked
  rw [received_of_whole h, received_of_whole (whole_append h p), List.map_append,
    List.filterMap_append, List.filter_append]
  show ((_ ++ List.filter _ ([p].filterMap readCall)).getLast?) = _
  cases hm : readCall p with
  | none => simp [hm]
  | some m =>
    by_cases hmem : m.name ∈ awaited
    · simp [hm, hmem]
    · simp [hm, hmem]

/-- What `PILI_RTMP_SendPacket` does when its writes succeed. -/
theorem Steady.sendPacket_eq (h : Steady link k pending r) :
    r.sendPacket p queue reports =
      ({ r with
          wire := r.wire ++ [.whole p]
          methodCalls :=
            if p.packetType = 0x14 ∧ queue then r.methodCalls ++ [methodOf p.body]
            else r.methodCalls }, true) := by
  have hput : r.put p queue =
      ({ r with
          wire := r.wire ++ [.whole p]
          methodCalls :=
            if p.packetType = 0x14 ∧ queue then r.methodCalls ++ [methodOf p.body]
            else r.methodCalls }, .wrote) := by
    rw [RTMP.put, if_pos h.connected, h.network]
    simp
  rw [RTMP.sendPacket, hput]

theorem Steady.nextInvoke (h : Steady link k pending r) : Steady link k pending r.nextInvoke := by
  obtain ⟨calls, hw, horder⟩ := h.sent
  exact ⟨⟨calls, hw.nextInvoke, horder⟩, h.connected, h.network, h.whole, h.methodCalls⟩

/-- The next call of the handshake. -/
theorem Steady.sendCall (h : Steady link k pending r)
    (hk : (handshake r.streamId)[k]? = some call) (hreply : call.isReply = false)
    (hp : Carries link call p) :
    Steady link (k + 1) (pending ++ if queue then [methodOf p.body] else [])
        (r.sendPacket p queue reports).1 ∧
      (r.sendPacket p queue reports).1.wire = r.wire ++ [.whole p] ∧
      (r.sendPacket p queue reports).1.bPlaying = r.bPlaying ∧
      (r.sendPacket p queue reports).1.streamId = r.streamId := by
  obtain ⟨calls, hw, horder⟩ := h.sent
  rw [h.sendPacket_eq]
  refine ⟨⟨⟨calls ++ [call], @Wire.sent link call calls r _ (.whole p) hw hp rfl, ?_⟩, h.connected,
    h.network, whole_append h.whole p, ?_⟩, rfl, rfl, rfl⟩
  · rw [List.filter_append, horder, List.take_add_one]
    simp [hk, hreply]
  · cases queue <;> simp [hp.packetType, h.methodCalls]

/-- A steady session on the stream `id` that waits for the result of `m`, which
is also the call that the server was asked last. -/
structure Waits (link : RTMPLink) (k : Nat) (m : Method) (id : Int) (r : RTMP) : Prop where
  steady : Steady link k [m] r
  asked_eq : asked r.wire = some m
  bPlaying : r.bPlaying = false
  streamId : r.streamId = id

variable {m : Method} {id : Int} {a : RTMP.Arrival}

theorem name_mem_of_asked {wire : List Sent} (h : asked wire = some m) :
    m.name ∈ awaited := by
  have hmem : m ∈ (((received wire).map Sent.packet).filterMap readCall).filter
      fun m => m.name ∈ awaited := List.mem_of_getLast? h
  simpa using (List.mem_filter.mp hmem).2

theorem Waits.nextInvoke (h : Waits link k m id r) : Waits link k m id r.nextInvoke :=
  ⟨h.steady.nextInvoke, h.asked_eq, h.bPlaying, h.streamId⟩

theorem Waits.sendOther (h : Waits link k m id r) (hp : Reply link p) :
    Waits link k m id (r.sendPacket p false reports).1 := by
  obtain ⟨calls, hw, horder⟩ := h.steady.sent
  have hasked : asked (r.wire ++ [.whole p]) = some m := by
    rw [asked_append h.steady.whole]
    rcases hp with hp | ⟨call, hreply, hp⟩
    · simp [readCall, hp, h.asked_eq]
    · have hname : call.name ∉ awaited := by
        cases call with
        | checkBW | checkBWResult | pong => exact of_decide_eq_true rfl
        | _ => cases hreply
      rw [hp.readCall_eq.1]
      dsimp only
      rw [hp.readCall_eq.2, if_neg hname, h.asked_eq]
  rw [h.steady.sendPacket_eq]
  refine ⟨⟨?_, h.steady.connected, h.steady.network,
    whole_append h.steady.whole p, by simp [h.steady.methodCalls]⟩, hasked, h.bPlaying, h.streamId⟩
  rcases hp with hp | ⟨call, hreply, hp⟩
  · exact ⟨calls, @Wire.sent_other link calls r _ (.whole p) hw hp rfl, horder⟩
  · refine ⟨calls ++ [call], @Wire.sent link call calls r _ (.whole p) hw hp rfl, ?_⟩
    rw [List.filter_append, horder]
    simp [hreply]

theorem Waits.replied {r' : RTMP} (h : Waits link k m id r) (hr : Replied link r r') :
    Waits link k m id r' := by
  cases hr with
  | nothing => exact h
  | sent reports hp => exact h.sendOther hp

theorem Waits.sendCheckBW (h : Waits link k m id r) : Waits link k m id r.sendCheckBW.1 := by
  obtain ⟨calls, hw, -⟩ := h.steady.sent
  exact h.nextInvoke.replied hw.sendCheckBW

theorem Waits.sendCheckBWResult (h : Waits link k m id r) {txn : Int} (htxn : IsInt txn) :
    Waits link k m id (r.sendCheckBWResult txn).1 := by
  obtain ⟨calls, hw, horder⟩ := h.steady.sent
  have hcounter : Waits link k m id
      { r with nBWCheckCounter := (r.nBWCheckCounter + 1).bmod (2 ^ 32) } :=
    ⟨⟨⟨calls, ⟨hw.link_eq, hw.carried, hw.numInvokes, isInt_bmod _, hw.streamId⟩, horder⟩,
      h.steady.connected, h.steady.network, h.steady.whole, h.steady.methodCalls⟩, h.asked_eq,
      h.bPlaying, h.streamId⟩
  exact hcounter.replied (hw.sendCheckBWResult htxn)

theorem Waits.eraseCall {name : List UInt8} (h : Waits link k m id r) (hname : name ∉ awaited) :
    Waits link k m id (r.eraseCall name) := by
  have hne : m.name ≠ name := fun heq => hname (heq ▸ name_mem_of_asked h.asked_eq)
  have hcalls : (r.eraseCall name).methodCalls = [m] := by
    show r.methodCalls.eraseP _ = _
    rw [h.steady.methodCalls]
    simp [hne]
  obtain ⟨calls, hw, horder⟩ := h.steady.sent
  exact ⟨⟨⟨calls, hw.keep rfl, horder⟩, h.steady.connected, h.steady.network, h.steady.whole,
    hcalls⟩, h.asked_eq, h.bPlaying, h.streamId⟩

/-- Nothing that is waited for is in the counters of the reader. -/
theorem Waits.counted (h : Waits link k m id r) (nBytesIn nBytesInSent nClientBW : Int) :
    Waits link k m id { r with nBytesIn, nBytesInSent, nClientBW } := by
  obtain ⟨calls, hw, horder⟩ := h.steady.sent
  exact ⟨⟨⟨calls, hw.keep rfl, horder⟩, h.steady.connected, h.steady.network, h.steady.whole,
    h.steady.methodCalls⟩, h.asked_eq, h.bPlaying, h.streamId⟩

theorem Waits.bytesRead (h : Waits link k m id r) (nRead : Nat) :
    Waits link k m id (r.bytesRead nRead) := by
  have hother : Reply link
      { headerType := sizeMedium, packetType := 3, nChannel := 2, nBodySize := 4,
        body := encodeInt32 (UInt32.ofInt ((r.nBytesIn + nRead).bmod (2 ^ 32))).toNat } :=
    .inl (show (3 : UInt8) ≠ 0x14 by decide)
  unfold RTMP.bytesRead
  dsimp only
  split
  · exact (h.counted _ _ _).sendOther hother
  · exact h.counted _ _ _

/-- Every report gets out, so a round is read to its end. -/
theorem Waits.readAll {reads : List Nat} (h : Waits link k m id r) :
    ∃ r', r.readAll reads = (r', true) ∧ Waits link k m id r' := by
  induction reads generalizing r with
  | nil => exact ⟨r, rfl, h⟩
  | cons nRead reads ih =>
    rw [RTMP.readAll, if_pos h.steady.connected]
    exact ih (h.bytesRead nRead)

/-! ## What the server calls -/

theorem Waits.handleCall_other {method : List UInt8} {obj : AMFObject} (h : Waits link k m id r)
    (hmethod : method ∉ [av "_result", av "onFCUnsubscribe", av "close", av "onStatus"])
    (htxn : method ∈ [av "ping", av "_onbwcheck"] → (RTMP.txnOf obj).isSome) :
    ∃ r', r.handleCall method obj = some r' ∧ Waits link k m id r' := by
  have hhandled := handled_handleCall r method obj
  generalize r.handleCall method obj = o at hhandled
  cases hhandled with
  | result | unsubscribed | close | status => simp at hmethod
  | bwDone =>
    refine ⟨_, rfl, ?_⟩
    split
    · exact h.sendCheckBW
    · exact h
  | ping =>
    obtain ⟨txn, htxn⟩ := Option.isSome_iff_exists.mp (htxn (by simp))
    rw [htxn, Option.map_some]
    exact ⟨_, rfl, h.replied (replied_sendPong (isInt_of_txnOf htxn))⟩
  | bwCheck =>
    obtain ⟨txn, htxn⟩ := Option.isSome_iff_exists.mp (htxn (by simp))
    rw [htxn, Option.map_some]
    exact ⟨_, rfl, h.sendCheckBWResult (isInt_of_txnOf htxn)⟩
  | forgets hname =>
    have hother : ∀ name ∈ [av "_checkbw", av "set_playlist"], name ∉ awaited := by decide
    exact ⟨_, rfl, h.eraseCall (hother _ hname)⟩
  | ignored => exact ⟨r, rfl, h⟩

section Messages

variable {packetType : UInt8} {body : List UInt8}

theorem handlePacket_of_invoke {call : List UInt8} (h : invokeOf packetType body = some call)
    (hne : call ≠ []) : r.handlePacket packetType body = r.handleInvoke call := by
  unfold invokeOf at h
  unfold RTMP.handlePacket
  split at h
  · rename_i htype
    obtain rfl := Option.some.inj h
    subst htype
    rw [if_neg (by simp [hne])]
    rfl
  · split at h
    · rename_i htype
      obtain rfl := Option.some.inj h
      subst htype
      have hwhole : body ≠ [] := by
        rintro rfl
        exact hne rfl
      rw [if_neg (by simp [hwhole])]
      rfl
    · cases h

theorem handlePacket_of_heard {method : List UInt8} {obj : AMFObject}
    (h : heard packetType body = some (method, obj)) :
    r.handlePacket packetType body = r.handleCall method obj := by
  obtain ⟨call, hcall, h⟩ := Option.bind_eq_some_iff.mp h
  split at h
  · rename_i hhead
    have hne : call ≠ [] := by
      rintro rfl
      cases hhead
    rw [handlePacket_of_invoke hcall hne, RTMP.handleInvoke, hhead]
    dsimp only
    rw [if_neg (by simp)]
    split at h
    · rename_i o hdecode
      obtain ⟨name, hname, hpair⟩ := Option.map_eq_some_iff.mp h
      cases hpair
      rw [hdecode]
      dsimp only
      rw [hname, Option.bind_some]
    · cases h
  · cases h

theorem answer_eq {single : Bool} {reads : List Nat} {method : List UInt8} {obj : AMFObject}
    (hm : asked r.wire = some m) (h : heard packetType body = some (method, obj)) :
    answer r (.packet single reads packetType body) =
      if method = av "_result" ∧ RTMP.txnOf obj = some m.num then [obj] else [] := by
  unfold answer
  dsimp only
  rw [hm, h]

theorem answer_of_unheard {single : Bool} {reads : List Nat} (h : heard packetType body = none) :
    answer r (.packet single reads packetType body) = [] := by
  unfold answer
  dsimp only
  rw [h]
  cases asked r.wire <;> rfl

theorem heard_of_empty (packetType : UInt8) : heard packetType [] = none := by
  rw [heard, invokeOf]
  split
  · rfl
  · split <;> rfl

/-- A message without a call. -/
theorem Waits.handlePacket_other (h : Waits link k m id r)
    (hnone : invokeOf packetType body = none)
    (hbw : packetType.toNat ∈ [0x05, 0x06] → 4 ≤ body.length) :
    ∃ r', r.handlePacket packetType body = some r' ∧ Waits link k m id r' := by
  have h11 : packetType.toNat ≠ 0x11 := by
    intro heq
    obtain rfl : packetType = 0x11 := UInt8.toNat_inj.mp heq
    cases hnone
  have h14 : packetType.toNat ≠ 0x14 := by
    intro heq
    obtain rfl : packetType = 0x14 := UInt8.toNat_inj.mp heq
    cases hnone
  unfold RTMP.handlePacket
  split
  · exact ⟨r, rfl, h⟩
  · unfold RTMP.clientPacket
    split
    · refine ⟨_, rfl, ?_⟩
      unfold RTMP.handleCtrl
      split
      · exact h.replied (replied_sendCtrlPong _)
      · exact h
    · rename_i heq
      rw [if_neg (by have := hbw (by simp [heq]); omega)]
      exact ⟨r, rfl, h⟩
    · rename_i heq
      rw [if_neg (by have := hbw (by simp [heq]); omega)]
      exact ⟨_, rfl, h.counted _ _ _⟩
    · rename_i heq
      exact absurd heq h11
    · rename_i heq
      exact absurd heq h14
    · exact ⟨r, rfl, h⟩

/-- While a call has to be answered, a message of a server that means well
either changes nothing of the handshake, or is the answer. -/
theorem Waits.handlePacket {single : Bool} {reads : List Nat} (h : Waits link k m id r)
    (hs : Serves m packetType body) :
    (answer r (.packet single reads packetType body) = [] ∧
        ∃ r', r.handlePacket packetType body = some r' ∧ Waits link k m id r') ∨
      ∃ obj, answer r (.packet single reads packetType body) = [obj] ∧
        (m.name = av "createStream" → (streamOf obj).isSome) ∧
        r.handlePacket packetType body = r.handleResult obj m.num := by
  cases hs with
  | empty hempty =>
    subst hempty
    refine .inl ⟨answer_of_unheard (heard_of_empty packetType), r, ?_, h⟩
    rw [RTMP.handlePacket, if_pos (.inl rfl)]
  | other hnone hbw =>
    have hunheard : heard packetType body = none := by
      rw [heard, hnone, Option.bind_none]
    exact .inl ⟨answer_of_unheard hunheard, h.handlePacket_other hnone hbw⟩
  | @garbled call hcall hne hbad =>
    have hstep := handlePacket_of_invoke (r := r) hcall hne
    obtain ⟨b, bs, rfl⟩ := List.exists_cons_of_ne_nil hne
    refine .inl ⟨answer_of_unheard ?_, r, hstep.trans ?_, h⟩
    · rw [heard, hcall, Option.bind_some]
      rcases hbad with hbad | hbad
      · rw [if_neg hbad]
      · rw [hbad]
        split <;> rfl
    · unfold RTMP.handleInvoke
      rw [List.head?_cons]
      dsimp only
      rcases hbad with hbad | hbad
      · rw [if_pos (by simpa using hbad)]
      · rw [hbad]
        split <;> rfl
  | call hheard hmethod htxn =>
    refine .inl ⟨?_, ?_⟩
    · rw [answer_eq h.asked_eq hheard, if_neg]
      rintro ⟨rfl, -⟩
      exact hmethod (by simp)
    · rw [handlePacket_of_heard hheard]
      exact h.handleCall_other hmethod htxn
  | @result obj txn hheard htxn hid =>
    have hstep : r.handlePacket packetType body = r.handleResult obj txn := by
      rw [handlePacket_of_heard hheard, RTMP.handleCall, if_pos rfl, htxn, Option.bind_some]
    by_cases hnum : txn = m.num
    · refine .inr ⟨obj, ?_, hid hnum, hnum ▸ hstep⟩
      rw [answer_eq h.asked_eq hheard, if_pos ⟨rfl, hnum ▸ htxn⟩]
    · refine .inl ⟨?_, r, hstep.trans ?_, h⟩
      · rw [answer_eq h.asked_eq hheard, if_neg (by simp [htxn, hnum])]
      · unfold RTMP.handleResult
        rw [h.steady.methodCalls]
        simp [Ne.symm hnum]

end Messages

/-- What a server that means well lets arrive. -/
def Arrives (m : Method) : RTMP.Arrival → Prop
  | .chunk _ => True
  | .packet _ _ packetType body => Serves m packetType body
  | .readFailed _ _ => False

/-- A round of the loop: what is read before a message changes nothing of the
handshake. -/
theorem Waits.step (h : Waits link k m id r) (hs : Arrives m a) :
    (answer r a = [] ∧ ∃ r', r.step a = some r' ∧ Waits link k m id r') ∨
      ∃ r₁ obj, Waits link k m id r₁ ∧ answer r a = [obj] ∧
        (m.name = av "createStream" → (streamOf obj).isSome) ∧
        r.step a = r₁.handleResult obj m.num := by
  have hgo : ¬(r.bPlaying ∨ ¬r.connected) := by simp [h.steady.connected, h.bPlaying]
  cases a with
  | chunk reads =>
    obtain ⟨r₁, hread, h₁⟩ := @Waits.readAll link r k m id reads h
    refine .inl ⟨rfl, r₁, ?_, h₁⟩
    unfold RTMP.step
    rw [if_neg hgo]
    dsimp only
    rw [hread]
  | readFailed reads timedOut => exact hs.elim
  | packet single reads packetType body =>
    obtain ⟨r₁, hread, h₁⟩ := @Waits.readAll link r k m id reads h
    have hstep : r.step (.packet single reads packetType body) =
        r₁.handlePacket packetType body := by
      unfold RTMP.step
      rw [if_neg hgo]
      dsimp only
      rw [hread]
      dsimp only
      rw [if_pos (.inl h₁.steady.connected)]
    have hanswer : answer r (.packet single reads packetType body) =
        answer r₁ (.packet single reads packetType body) := by
      unfold answer
      dsimp only
      rw [h.asked_eq, h₁.asked_eq]
    rw [hstep, hanswer]
    rcases @Waits.handlePacket link r₁ k m id packetType body single reads h₁ hs with
      hnone | ⟨obj, hone, hid, heq⟩
    · exact .inl hnone
    · exact .inr ⟨r₁, obj, h₁, hone, hid, heq⟩

/-! ## Answers -/

theorem Steady.sendWithPlaypath (h : Steady link k pending r) (hroom : Fitting link)
    (hk : (handshake r.streamId)[k]? = some call) (hreply : call.isReply = false)
    (hargs : call.args link = [.null, .string link.playpath])
    (hstream : UInt32.ofInt call.onStream = 0) (hname : call.name.length ≤ 13) :
    Steady link (k + 1) pending (r.sendWithPlaypath call.name).1 ∧
      (r.sendWithPlaypath call.name).1.bPlaying = r.bPlaying ∧
      (r.sendWithPlaypath call.name).1.streamId = r.streamId := by
  obtain ⟨calls, hw, -⟩ := h.nextInvoke.sent
  have hbody : ∃ body, callBody 1024 call.name r.nextInvoke.numInvokes (fun enc =>
      encodeString (bodyRoom 1024) (enc ++ [amfNull]) link.playpath) = some body := by
    have hfits : bodyRoom 1024 = 1006 := rfl
    have hplaypath := hroom.playpath
    obtain ⟨enc, hlength, heq⟩ := @callBody_of_room 1024 call.name r.nextInvoke.numInvokes
      (fun enc => encodeString (bodyRoom 1024) (enc ++ [amfNull]) link.playpath) (by omega)
      (by omega)
    rw [heq]
    refine ⟨_, encodeString_of_room ?_ (by omega)⟩
    simp only [List.length_append, List.length_singleton]
    omega
  obtain ⟨body, hbody⟩ := hbody
  have hcarries : Carries link call (invokePacket 3 sizeMedium 0 0 body) :=
    hstream ▸ carries_playpath hargs hw.numInvokes hbody
  have hsent := @Steady.sendCall link call _ r.nextInvoke k pending false true h.nextInvoke hk
    hreply hcarries
  have heq : r.sendWithPlaypath call.name =
      r.nextInvoke.sendPacket (invokePacket 3 sizeMedium 0 0 body) false true := by
    unfold RTMP.sendWithPlaypath RTMP.sendInvoke
    dsimp only
    rw [hw.link_eq, hbody]
  rw [heq]
  refine ⟨?_, hsent.2.2.1, hsent.2.2.2⟩
  simpa using hsent.1

/-- After the next call of the handshake, if it has to be answered, the session
waits for its result. -/
theorem Steady.waits (h : Steady link k [] r) (hplaying : r.bPlaying = false)
    (hk : (handshake r.streamId)[k]? = some call) (hreply : call.isReply = false)
    (hcall : call.name ∈ awaited) (hp : Carries link call p) :
    ∃ m, m.name = call.name ∧
      Waits link (k + 1) m r.streamId (r.sendPacket p true true).1 := by
  obtain ⟨hsteady, hwire, hkeeps, hid⟩ :=
    @Steady.sendCall link call p r k [] true true h hk hreply hp
  refine ⟨methodOf p.body, hp.readCall_eq.2, by simpa using hsteady, ?_, hkeeps.trans hplaying, hid⟩
  rw [hwire, asked_append h.whole, hp.readCall_eq.1]
  dsimp only
  rw [if_pos (hp.readCall_eq.2 ▸ hcall)]

theorem Steady.sendCreateStream (h : Steady link 3 [] r) (hplaying : r.bPlaying = false) :
    ∃ m, m.name = av "createStream" ∧
      Waits link 4 m r.streamId r.sendCreateStream.1 := by
  obtain ⟨calls, hw, -⟩ := h.nextInvoke.sent
  obtain ⟨enc, -, heq⟩ := @callBody_of_room 256 (av "createStream") r.nextInvoke.numInvokes
    (fun enc => some (enc ++ [amfNull])) (by decide) (by decide)
  have hcarries : Carries link .createStream (invokePacket 3 sizeMedium 0 0 (enc ++ [amfNull])) :=
    @carries_null _ .createStream _ _ _ _ _ _ rfl hw.numInvokes heq
  unfold RTMP.sendCreateStream RTMP.sendInvoke
  dsimp only
  rw [heq]
  exact h.nextInvoke.waits hplaying rfl rfl (by decide) hcarries

theorem Steady.sendPublish (h : Steady link 4 [] r) (hroom : Fitting link)
    (hplaying : r.bPlaying = false) :
    ∃ m, m.name = av "publish" ∧ Waits link 5 m r.streamId r.sendPublish.1 := by
  obtain ⟨calls, hw, -⟩ := h.nextInvoke.sent
  have hbody : ∃ body, callBody 1024 (av "publish") r.nextInvoke.numInvokes (fun enc =>
      (encodeString (bodyRoom 1024) (enc ++ [amfNull]) link.playpath).bind fun enc =>
        encodeString (bodyRoom 1024) enc (av "live")) = some body := by
    have hfits : bodyRoom 1024 = 1006 := rfl
    have hplaypath := hroom.playpath
    have hname : (av "publish").length = 7 := rfl
    have hlive : (av "live").length = 4 := rfl
    obtain ⟨enc, hlength, heq⟩ := @callBody_of_room 1024 (av "publish") r.nextInvoke.numInvokes
      (fun enc => (encodeString (bodyRoom 1024) (enc ++ [amfNull]) link.playpath).bind fun enc =>
        encodeString (bodyRoom 1024) enc (av "live")) (by decide) (by decide)
    rw [heq, encodeString_of_room (by simp; omega) (by omega), Option.bind_some]
    refine ⟨_, encodeString_of_room ?_ (by decide)⟩
    simp only [List.length_append, List.length_cons, List.length_nil, length_encodeInt16]
    omega
  obtain ⟨body, hbody⟩ := hbody
  have hcarries : Carries link (.publish r.streamId)
      (invokePacket 4 sizeLarge 0 (UInt32.ofInt r.streamId) body) :=
    carries_publish hw.numInvokes hbody
  unfold RTMP.sendPublish RTMP.sendInvoke
  dsimp only
  rw [hw.link_eq, hbody]
  exact h.nextInvoke.waits hplaying rfl rfl (show av "publish" ∈ awaited by decide) hcarries

theorem Steady.sendConnectPacket (h : Steady link 0 [] r) (hroom : Fitting link)
    (hplaying : r.bPlaying = false) :
    ∃ m, m.name = av "connect" ∧ Waits link 1 m r.streamId r.sendConnectPacket.1 ∧
      r.sendConnectPacket.2 = true := by
  obtain ⟨calls, hw, -⟩ := h.nextInvoke.sent
  have hbody : ∃ body, callBody 4096 (av "connect") r.nextInvoke.numInvokes (fun enc =>
      (RTMP.encodeFields (enc ++ [amfObject]) (RTMP.connectFields link)).bind fun enc =>
        if bodyRoom 4096 ≤ enc.length + 3 then none
        else some (enc ++ encodeInt24 amfObjectEnd)) = some body := by
    have hfits : bodyRoom 4096 = 4078 := rfl
    have hconnect := hroom.connect
    have hname : (av "connect").length = 7 := rfl
    obtain ⟨enc, hlength, heq⟩ := @callBody_of_room 4096 (av "connect") r.nextInvoke.numInvokes
      (fun enc => (RTMP.encodeFields (enc ++ [amfObject]) (RTMP.connectFields link)).bind fun enc =>
        if bodyRoom 4096 ≤ enc.length + 3 then none
        else some (enc ++ encodeInt24 amfObjectEnd)) (by decide) (by decide)
    have hstart : (enc ++ [amfObject]).length = enc.length + 1 := by simp
    obtain ⟨res, hres, hres_length⟩ := @encodeFields_of_room (RTMP.connectFields link)
      (enc ++ [amfObject]) (by omega)
    rw [heq, hres, Option.bind_some, if_neg (by omega)]
    exact ⟨_, rfl⟩
  obtain ⟨body, hbody⟩ := hbody
  have hcarries : Carries link .connect (invokePacket 3 sizeLarge 0 0 body) :=
    carries_connect hw.numInvokes hbody
  have heq : r.sendConnectPacket =
      r.nextInvoke.sendPacket (invokePacket 3 sizeLarge 0 0 body) true true := by
    unfold RTMP.sendConnectPacket RTMP.sendInvoke
    dsimp only
    rw [hw.link_eq, hbody]
  obtain ⟨m, hm, hwaits⟩ :=
    h.nextInvoke.waits hplaying rfl rfl (show av "connect" ∈ awaited by decide) hcarries
  rw [heq]
  exact ⟨m, hm, hwaits, congrArg Prod.snd h.nextInvoke.sendPacket_eq⟩

/-- The session once its call is answered. -/
theorem Waits.forget (h : Waits link k m id r) : Steady link k [] { r with methodCalls := [] } := by
  obtain ⟨calls, hw, horder⟩ := h.steady.sent
  exact ⟨⟨calls, hw.keep rfl, horder⟩, h.steady.connected, h.steady.network, h.steady.whole, rfl⟩

theorem Waits.found (h : Waits link k m id r) :
    (r.methodCalls.find? fun call => call.num = m.num) = some m ∧
      (r.methodCalls.eraseP fun call => call.num = m.num) = [] := by
  rw [h.steady.methodCalls]
  simp

theorem Waits.connect_answered (h : Waits link 1 m id r) (hname : m.name = av "connect")
    (hroom : Fitting link) (obj : AMFObject) :
    ∃ r' m', r.handleResult obj m.num = some r' ∧ m'.name = av "createStream" ∧
      Waits link 4 m' id r' := by
  obtain ⟨hfind, herase⟩ := h.found
  have hrelease := @Steady.sendWithPlaypath link .releaseStream _ 1 [] h.forget hroom rfl rfl rfl
    rfl (by decide)
  have hpublish := @Steady.sendWithPlaypath link .fcPublish _ 2 [] hrelease.1 hroom rfl rfl rfl
    rfl (by decide)
  obtain ⟨m', hm', hwaits⟩ :=
    hpublish.1.sendCreateStream (hpublish.2.1.trans (hrelease.2.1.trans h.bPlaying))
  have hid := hpublish.2.2.trans (hrelease.2.2.trans h.streamId)
  rw [hid] at hwaits
  refine ⟨_, m', ?_, hm', hwaits⟩
  unfold RTMP.handleResult
  rw [hfind]
  dsimp only
  rw [if_pos hname, herase]
  rfl

theorem Waits.createStream_answered {streamId : Int} {obj : AMFObject} (h : Waits link 4 m id r)
    (hname : m.name = av "createStream") (hroom : Fitting link)
    (hid : streamOf obj = some streamId) :
    ∃ r' m', r.handleResult obj m.num = some r' ∧ m'.name = av "publish" ∧
      Waits link 5 m' streamId r' := by
  obtain ⟨hfind, herase⟩ := h.found
  obtain ⟨calls, hw, horder⟩ := h.steady.sent
  obtain ⟨number, -, hcast⟩ := Option.bind_eq_some_iff.mp hid
  have hsteady : Steady link 4 [] { r with methodCalls := [], streamId } :=
    ⟨⟨calls, ⟨hw.link_eq, hw.carried, hw.numInvokes, hw.nBWCheckCounter, isInt_of_castInt hcast⟩,
      horder⟩, h.steady.connected, h.steady.network, h.steady.whole, rfl⟩
  obtain ⟨m', hm', hwaits⟩ := hsteady.sendPublish hroom h.bPlaying
  refine ⟨_, m', ?_, hm', hwaits⟩
  unfold RTMP.handleResult
  rw [hfind]
  dsimp only
  rw [hname, if_neg (by decide), if_pos rfl, herase]
  show (streamOf obj).map _ = _
  rw [hid, Option.map_some]

theorem Waits.publish_answered (h : Waits link 5 m id r) (hname : m.name = av "publish")
    (obj : AMFObject) :
    ∃ r', r.handleResult obj m.num = some r' ∧ Steady link 5 [] r' ∧ r'.bPlaying = true ∧
      r'.streamId = id := by
  obtain ⟨hfind, herase⟩ := h.found
  obtain ⟨⟨calls, hw, horder⟩, hconn, hnet, hwhole, -⟩ := h.steady
  refine ⟨{ r with methodCalls := [], bPlaying := true }, ?_, ?_, rfl, h.streamId⟩
  · unfold RTMP.handleResult
    rw [hfind]
    dsimp only
    rw [hname, if_neg (by decide), if_neg (by decide), if_pos (.inr rfl), herase]
  · exact ⟨⟨calls, hw.keep rfl, horder⟩, hconn, hnet, hwhole, rfl⟩

/-! ## Runs -/

/-- How far the handshake has come with the answers `os`. -/
inductive Came (link : RTMPLink) (r : RTMP) : List AMFObject → Prop
  | connecting {m : Method} {id : Int} (h : Waits link 1 m id r) (hname : m.name = av "connect") :
      Came link r []
  | creating {m : Method} {id : Int} {o : AMFObject} (h : Waits link 4 m id r)
      (hname : m.name = av "createStream") : Came link r [o]
  | publishing {m : Method} {id : Int} {o o' : AMFObject} (h : Waits link 5 m id r)
      (hname : m.name = av "publish") (hid : streamOf o' = some id) : Came link r [o, o']
  | playing {o o' o'' : AMFObject} (h : Steady link 5 [] r) (hplaying : r.bPlaying = true)
      (hid : streamOf o' = some r.streamId) : Came link r [o, o', o'']

/-- A server that means well, as long as the session does not publish. -/
def ServesWell (r : RTMP) (a : RTMP.Arrival) : Prop :=
  r.bPlaying = false ∧ ∃ m, asked r.wire = some m ∧ Arrives m a

theorem Waits.arrives (h : Waits link k m id r) (hs : ServesWell r a) : Arrives m a := by
  obtain ⟨-, m', hm', hserves⟩ := hs
  rw [h.asked_eq] at hm'
  exact Option.some.inj hm' ▸ hserves

theorem Came.step {os : List AMFObject} (h : Came link r os) (hroom : Fitting link)
    (hs : ServesWell r a) : ∃ r', r.step a = some r' ∧ Came link r' (os ++ answer r a) := by
  cases h with
  | connecting h hname =>
    rcases h.step (h.arrives hs) with ⟨hnone, r', hr', h'⟩ | ⟨r₁, obj, h₁, hone, -, hr'⟩
    · rw [hnone]
      exact ⟨r', hr', .connecting h' hname⟩
    · rw [hone, hr']
      obtain ⟨r', m', heq, hm', h'⟩ := h₁.connect_answered hname hroom obj
      exact ⟨r', heq, .creating h' hm'⟩
  | @creating m id o h hname =>
    rcases h.step (h.arrives hs) with ⟨hnone, r', hr', h'⟩ | ⟨r₁, obj, h₁, hone, hid, hr'⟩
    · rw [hnone]
      exact ⟨r', hr', .creating h' hname⟩
    · rw [hone, hr']
      obtain ⟨streamId, hid⟩ := Option.isSome_iff_exists.mp (hid hname)
      obtain ⟨r', m', heq, hm', h'⟩ := h₁.createStream_answered hname hroom hid
      exact ⟨r', heq, .publishing h' hm' hid⟩
  | @publishing m id o o' h hname hid =>
    rcases h.step (h.arrives hs) with ⟨hnone, r', hr', h'⟩ | ⟨r₁, obj, h₁, hone, -, hr'⟩
    · rw [hnone]
      exact ⟨r', hr', .publishing h' hname hid⟩
    · rw [hone, hr']
      obtain ⟨r', heq, h', hplaying, hstream⟩ := h₁.publish_answered hname obj
      exact ⟨r', heq, .playing h' hplaying (hid.trans (congrArg some hstream.symm))⟩
  | playing h hplaying hid =>
    rw [hs.1] at hplaying
    cases hplaying

end WaxxyLive.Rtmp
