import WaxxyLive.LiveKit.RtmpCalls
import WaxxyLive.Lib.Runs
import Mathlib.Data.List.Forall2

/-!
# What the server is asked

Whatever the server sends and the network does, a server reads the calls that
come before any cut message, and those of the handshake come in one order, each
at most once.
-/

namespace WaxxyLive.Rtmp

open Bytes Amf

variable {link : RTMPLink} {call : Call} {p : RTMPPacket}

/-! ## What sending changes -/

/-- The packets of calls on the wire, those that were cut among them. -/
def invokes (wire : List Sent) : List RTMPPacket :=
  (wire.map Sent.packet).filter fun p => p.packetType = 0x14

theorem invokes_append (wire wire' : List Sent) :
    invokes (wire ++ wire') = invokes wire ++ invokes wire' := by
  simp [invokes]

/-- `r'` is `r` with a message on the wire, its beginning or nothing of it. -/
inductive Put (r : RTMP) (p : RTMPPacket) (queue : Bool) : RTMP → Prop
  | nothing (network : List WriteResult) : Put r p queue { r with network }
  | cut (h : r.connected = true) (network : List WriteResult) :
      Put r p queue { r with network, wire := r.wire ++ [.cut p] }
  | whole (h : r.connected = true) (network : List WriteResult) :
      Put r p queue
        { r with
          network
          wire := r.wire ++ [.whole p]
          methodCalls :=
            if p.packetType = 0x14 ∧ queue then r.methodCalls ++ [methodOf p.body]
            else r.methodCalls }

theorem put_cutOff {r : RTMP} {p : RTMPPacket} {queue : Bool} (h : r.connected = true) (cut : Bool)
    (network : List WriteResult) :
    Put r p queue { r with network, wire := r.wire ++ cutOff cut p } := by
  cases cut with
  | false =>
    rw [cutOff, if_neg (by simp), List.append_nil]
    exact .nothing network
  | true => exact .cut h network

theorem put_spec (r : RTMP) (p : RTMPPacket) (queue : Bool) : Put r p queue (r.put p queue).1 := by
  unfold RTMP.put
  by_cases hconn : r.connected
  · rw [if_pos hconn]
    cases hnet : r.network with
    | nil => exact .whole hconn []
    | cons result network =>
      cases result with
      | failed cut => exact put_cutOff hconn cut network
      | nothing cut => exact put_cutOff hconn cut network
      | wrote => exact .whole hconn network
  · rw [if_neg hconn]
    exact .nothing r.network

/-- Sending a packet puts it, and may close the session. -/
theorem sendPacket_cases (r : RTMP) (p : RTMPPacket) (queue reports : Bool) :
    (r.sendPacket p queue reports).1 = (r.put p queue).1 ∨
      ∃ error : Option RTMPErrorCode, (reports = false → error = none) ∧
        (r.sendPacket p queue reports).1 = (r.put p queue).1.close error := by
  unfold RTMP.sendPacket
  split
  · rename_i r' heq
    exact .inl (by rw [heq])
  · rename_i r' cut heq
    exact .inl (by rw [heq])
  · rename_i r' cut heq
    exact .inr ⟨if reports then some .sendFailed else none,
      fun hreports => if_neg (by simp [hreports]), by rw [heq]⟩

/-- The calls of a handshake that ends on a stream, in their order. -/
def handshake (streamId : Int) : List Call :=
  [.connect, .releaseStream, .fcPublish, .createStream, .publish streamId]

/-- The packets of calls on the wire carry `calls`, and the counters are integers. -/
structure Wire (link : RTMPLink) (calls : List Call) (r : RTMP) : Prop where
  link_eq : r.link = link
  carried : List.Forall₂ (Carries link) calls (invokes r.wire)
  numInvokes : IsInt r.numInvokes
  nBWCheckCounter : IsInt r.nBWCheckCounter
  streamId : IsInt r.streamId

/-- An open session which has come to the `k`-th call of its handshake and waits
for the results of `pending`. -/
structure Open (k : Nat) (pending : List (List UInt8)) (calls : List Call) (r : RTMP) : Prop where
  connected : r.connected = true
  isClosing : r.isClosing = false
  told : r.told = []
  order : (calls.filter fun call => !call.isReply).Sublist ((handshake r.streamId).take k)
  pending : (r.methodCalls.map Method.name).Sublist pending

/-- A session that was closed, which is told once and takes no more of the calls. -/
structure Closed (calls : List Call) (r : RTMP) : Prop where
  connected : r.connected = false
  isClosing : r.isClosing = true
  bPlaying : r.bPlaying = false
  methodCalls : r.methodCalls = []
  told : r.told.length ≤ 1
  order : ∃ streamId, (calls.filter fun call => !call.isReply).Sublist
    (handshake streamId ++ [.fcUnpublish, .deleteStream streamId])

def Good (link : RTMPLink) (k : Nat) (pending : List (List UInt8)) (r : RTMP) : Prop :=
  ∃ calls, Wire link calls r ∧ (Open k pending calls r ∨ Closed calls r)

variable {calls : List Call} {r : RTMP} {k : Nat} {pending : List (List UInt8)} {queue : Bool}

/-- What `Wire` says depends on five fields only. -/
theorem Wire.keep {r' : RTMP} (hw : Wire link calls r)
    (h : (r'.link, r'.wire, r'.numInvokes, r'.nBWCheckCounter, r'.streamId) =
      (r.link, r.wire, r.numInvokes, r.nBWCheckCounter, r.streamId)) : Wire link calls r' := by
  simp only [Prod.mk.injEq] at h
  obtain ⟨hlink, hwire, hnum, hcounter, hstream⟩ := h
  exact ⟨hlink.trans hw.link_eq, hwire ▸ hw.carried, hnum ▸ hw.numInvokes,
    hcounter ▸ hw.nBWCheckCounter, hstream ▸ hw.streamId⟩

theorem Wire.sent {r' : RTMP} {sent : Sent} (hw : Wire link calls r)
    (hp : Carries link call sent.packet)
    (h : (r'.link, r'.wire, r'.numInvokes, r'.nBWCheckCounter, r'.streamId) =
      (r.link, r.wire ++ [sent], r.numInvokes, r.nBWCheckCounter, r.streamId)) :
    Wire link (calls ++ [call]) r' := by
  simp only [Prod.mk.injEq] at h
  obtain ⟨hlink, hwire, hnum, hcounter, hstream⟩ := h
  refine ⟨hlink.trans hw.link_eq, ?_, hnum ▸ hw.numInvokes, hcounter ▸ hw.nBWCheckCounter,
    hstream ▸ hw.streamId⟩
  rw [hwire, invokes_append]
  exact List.rel_append hw.carried (by simp [invokes, hp.packetType, hp])

theorem Wire.sent_other {r' : RTMP} {sent : Sent} (hw : Wire link calls r)
    (hp : sent.packet.packetType ≠ 0x14)
    (h : (r'.link, r'.wire, r'.numInvokes, r'.nBWCheckCounter, r'.streamId) =
      (r.link, r.wire ++ [sent], r.numInvokes, r.nBWCheckCounter, r.streamId)) :
    Wire link calls r' := by
  simp only [Prod.mk.injEq] at h
  obtain ⟨hlink, hwire, hnum, hcounter, hstream⟩ := h
  refine ⟨hlink.trans hw.link_eq, ?_, hnum ▸ hw.numInvokes, hcounter ▸ hw.nBWCheckCounter,
    hstream ▸ hw.streamId⟩
  rw [hwire, invokes_append]
  simpa [invokes, hp] using hw.carried

theorem Wire.put_call (hw : Wire link calls r) (hp : Carries link call p) :
    ∃ calls', (calls' = calls ∨ calls' = calls ++ [call]) ∧ Wire link calls' (r.put p queue).1 := by
  have hput := put_spec r p queue
  generalize (r.put p queue).1 = r' at hput ⊢
  cases hput with
  | nothing network => exact ⟨calls, .inl rfl, hw.keep rfl⟩
  | cut h network =>
    exact ⟨calls ++ [call], .inr rfl, @Wire.sent link call calls r _ (.cut p) hw hp rfl⟩
  | whole h network =>
    exact ⟨calls ++ [call], .inr rfl, @Wire.sent link call calls r _ (.whole p) hw hp rfl⟩

theorem put_told (r : RTMP) (p : RTMPPacket) (queue : Bool) :
    (r.put p queue).1.told = r.told ∧ (r.put p queue).1.isClosing = r.isClosing := by
  have hput := put_spec r p queue
  generalize (r.put p queue).1 = r' at hput ⊢
  cases hput <;> exact ⟨rfl, rfl⟩

theorem Wire.nextInvoke (hw : Wire link calls r) : Wire link calls r.nextInvoke :=
  ⟨hw.link_eq, hw.carried, isInt_bmod _, hw.nBWCheckCounter, hw.streamId⟩

/-! ## Closing -/

theorem Wire.sendFCUnpublish (hw : Wire link calls r) :
    ∃ calls', (calls' = calls ∨ calls' = calls ++ [.fcUnpublish]) ∧
      Wire link calls' r.sendFCUnpublish ∧ r.sendFCUnpublish.told = r.told ∧
        r.sendFCUnpublish.isClosing = r.isClosing := by
  have hnext := hw.nextInvoke
  unfold RTMP.sendFCUnpublish
  dsimp only
  split
  · exact ⟨calls, .inl rfl, hnext, rfl, rfl⟩
  · rename_i body hbody
    have hlink : r.nextInvoke.link = link := hw.link_eq
    rw [hlink] at hbody
    have hcarries : Carries link .fcUnpublish (invokePacket 3 sizeMedium 0 0 body) :=
      @carries_playpath _ .fcUnpublish _ _ _ _ _ rfl hnext.numInvokes hbody
    obtain ⟨calls', hcalls, hput⟩ := hnext.put_call hcarries
    exact ⟨calls', hcalls, hput, put_told _ _ _⟩

theorem Wire.sendDeleteStream {streamId : Int} (hw : Wire link calls r) (hid : IsInt streamId) :
    ∃ calls', (calls' = calls ∨ calls' = calls ++ [.deleteStream streamId]) ∧
      Wire link calls' (r.sendDeleteStream streamId) ∧
        (r.sendDeleteStream streamId).told = r.told ∧
          (r.sendDeleteStream streamId).isClosing = r.isClosing := by
  have hnext := hw.nextInvoke
  unfold RTMP.sendDeleteStream
  dsimp only
  split
  · exact ⟨calls, .inl rfl, hnext, rfl, rfl⟩
  · rename_i body hbody
    have hcarries : Carries link (.deleteStream streamId) (invokePacket 3 sizeMedium 0 0 body) :=
      @carries_number _ (.deleteStream streamId) _ _ _ _ _ _ _ rfl hnext.numInvokes hid hbody
    obtain ⟨calls', hcalls, hput⟩ := hnext.put_call hcarries
    exact ⟨calls', hcalls, hput, put_told _ _ _⟩

/-- What an open session says when it is closed. -/
theorem close_spec (hw : Wire link calls r) (ho : Open k pending calls r)
    (error : Option RTMPErrorCode) :
    ∃ calls', Wire link calls' (r.close error) ∧ Closed calls' (r.close error) := by
  have horder : (calls.filter fun call => !call.isReply).Sublist (handshake r.streamId) :=
    ho.order.trans (List.take_sublist _ _)
  have htold : ([] ++ error.toList : List RTMPErrorCode).length ≤ 1 := by
    cases error <;> simp
  have hint : IsInt 0 := ⟨by decide, by decide⟩
  have hgone : IsInt (-1) := ⟨by decide, by decide⟩
  have hw' : Wire link calls { r with isClosing := true } := hw.keep rfl
  unfold RTMP.close
  rw [if_neg (by simp [ho.isClosing])]
  dsimp only
  rw [if_pos ho.connected]
  by_cases hpos : 0 < r.streamId
  · rw [if_pos hpos]
    obtain ⟨calls₁, hcalls₁, hw₁, htold₁, hclosing₁⟩ := hw'.sendFCUnpublish
    have hw₁' : Wire link calls₁
        { RTMP.sendFCUnpublish { r with isClosing := true } with streamId := 0 } :=
      ⟨hw₁.link_eq, hw₁.carried, hw₁.numInvokes, hw₁.nBWCheckCounter, hint⟩
    obtain ⟨calls₂, hcalls₂, hw₂, htold₂, hclosing₂⟩ := hw₁'.sendDeleteStream hw.streamId
    refine ⟨calls₂, ⟨hw₂.link_eq, hw₂.carried, hint, hint, hgone⟩, rfl, ?_, rfl, rfl, ?_,
      r.streamId, ?_⟩
    · exact hclosing₂.trans hclosing₁
    · dsimp only
      rw [htold₂.trans (htold₁.trans ho.told)]
      exact htold
    · have hfirst : (calls₁.filter fun call => !call.isReply).Sublist
          (handshake r.streamId ++ [.fcUnpublish]) := by
        rcases hcalls₁ with rfl | rfl
        · exact horder.trans (List.sublist_append_left _ _)
        · rw [List.filter_append]
          exact horder.append (List.Sublist.refl _)
      rcases hcalls₂ with rfl | rfl
      · exact hfirst.trans (List.sublist_append_left _ [Call.deleteStream r.streamId])
      · rw [List.filter_append]
        exact hfirst.append (List.Sublist.refl [Call.deleteStream r.streamId])
  · rw [if_neg hpos]
    refine ⟨calls, ⟨hw.link_eq, hw.carried, hint, hint, hgone⟩, rfl, rfl, rfl, rfl, ?_,
      r.streamId, ?_⟩
    · dsimp only
      rw [ho.told]
      exact htold
    · exact horder.trans (List.sublist_append_left _ _)

theorem close_of_closed (hc : Closed calls r) (error : Option RTMPErrorCode) :
    r.close error = r := by
  rw [RTMP.close, if_pos hc.isClosing]

/-- However far a session has come, closing it leaves it good. -/
theorem Good.close (h : Good link k pending r) (error : Option RTMPErrorCode) (k' : Nat)
    (pending' : List (List UInt8)) : Good link k' pending' (r.close error) := by
  obtain ⟨calls, hw, ho | hc⟩ := h
  · obtain ⟨calls', hw', hc'⟩ := close_spec hw ho error
    exact ⟨calls', hw', .inr hc'⟩
  · rw [close_of_closed hc]
    exact ⟨calls, hw, .inr hc⟩

/-! ## Sending -/

theorem Open.mono {k' : Nat} {pending' : List (List UInt8)} (ho : Open k pending calls r)
    (hk : k ≤ k') (hpending : pending.Sublist pending') : Open k' pending' calls r :=
  ⟨ho.connected, ho.isClosing, ho.told, ho.order.trans (List.take_sublist_take_left hk),
    ho.pending.trans hpending⟩

theorem Good.mono {k' : Nat} {pending' : List (List UInt8)} (h : Good link k pending r)
    (hk : k ≤ k') (hpending : pending.Sublist pending') : Good link k' pending' r := by
  obtain ⟨calls, hw, ho | hc⟩ := h
  · exact ⟨calls, hw, .inl (ho.mono hk hpending)⟩
  · exact ⟨calls, hw, .inr hc⟩

theorem Good.nextInvoke (h : Good link k pending r) : Good link k pending r.nextInvoke := by
  obtain ⟨calls, hw, ho | hc⟩ := h
  · exact ⟨calls, hw.nextInvoke,
      .inl ⟨ho.connected, ho.isClosing, ho.told, ho.order, ho.pending⟩⟩
  · exact ⟨calls, hw.nextInvoke,
      .inr ⟨hc.connected, hc.isClosing, hc.bPlaying, hc.methodCalls, hc.told, hc.order⟩⟩

theorem Good.network (h : Good link k pending r) (network : List WriteResult) :
    Good link k pending { r with network } := by
  obtain ⟨calls, hw, ho | hc⟩ := h
  · exact ⟨calls, hw.keep rfl,
      .inl ⟨ho.connected, ho.isClosing, ho.told, ho.order, ho.pending⟩⟩
  · exact ⟨calls, hw.keep rfl,
      .inr ⟨hc.connected, hc.isClosing, hc.bPlaying, hc.methodCalls, hc.told, hc.order⟩⟩

theorem Good.open_of_connected (h : Good link k pending r) (hconn : r.connected = true) :
    ∃ calls, Wire link calls r ∧ Open k pending calls r := by
  obtain ⟨calls, hw, ho | hc⟩ := h
  · exact ⟨calls, hw, ho⟩
  · rw [hc.connected] at hconn
    cases hconn

theorem Good.sendPacket {reports : Bool} (h : Good link k pending (r.put p queue).1) :
    Good link k pending (r.sendPacket p queue reports).1 := by
  rcases sendPacket_cases r p queue reports with heq | ⟨error, -, heq⟩
  · rwa [heq]
  · rw [heq]
    exact h.close _ _ _

/-- The next call of the handshake. -/
theorem Good.sendCall (queue reports : Bool) (h : Good link k pending r)
    (hk : (handshake r.streamId)[k]? = some call) (hreply : call.isReply = false)
    (hp : Carries link call p) :
    Good link (k + 1) (pending ++ if queue then [call.name] else [])
      (r.sendPacket p queue reports).1 := by
  refine Good.sendPacket ?_
  have hput := put_spec r p queue
  generalize (r.put p queue).1 = r' at hput ⊢
  -- a call that is cut counts as made, but is not waited for
  have horder : ∀ {calls : List Call}, Open k pending calls r →
      ((calls ++ [call]).filter fun call => !call.isReply).Sublist
        ((handshake r.streamId).take (k + 1)) := by
    intro calls ho
    rw [List.filter_append, List.take_add_one]
    exact ho.order.append (by simp [hk, hreply])
  cases hput with
  | nothing network =>
    exact (h.mono (Nat.le_succ k) (List.sublist_append_left _ _)).network network
  | cut hconn network =>
    obtain ⟨calls, hw, ho⟩ := h.open_of_connected hconn
    exact ⟨calls ++ [call], @Wire.sent link call calls r _ (.cut p) hw hp rfl,
      .inl ⟨hconn, ho.isClosing, ho.told, horder ho,
        ho.pending.trans (List.sublist_append_left _ _)⟩⟩
  | whole hconn network =>
    obtain ⟨calls, hw, ho⟩ := h.open_of_connected hconn
    refine ⟨calls ++ [call], @Wire.sent link call calls r _ (.whole p) hw hp rfl,
      .inl ⟨hconn, ho.isClosing, ho.told, horder ho, ?_⟩⟩
    dsimp only
    cases queue with
    | false => simpa using ho.pending
    | true =>
      rw [if_pos ⟨hp.packetType, rfl⟩, List.map_append]
      exact ho.pending.append (by simp [hp.methodOf_body])

/-- A packet that no call of the handshake is on. -/
def Reply (link : RTMPLink) (p : RTMPPacket) : Prop :=
  p.packetType ≠ 0x14 ∨ ∃ call : Call, call.isReply = true ∧ Carries link call p

theorem Good.put_other {network : List WriteResult} {sent : Sent} (h : Good link k pending r)
    (hconn : r.connected = true) (hp : Reply link sent.packet) :
    Good link k pending { r with network, wire := r.wire ++ [sent] } := by
  obtain ⟨calls, hw, ho⟩ := h.open_of_connected hconn
  rcases hp with hp | ⟨call, hreply, hp⟩
  · exact ⟨calls, hw.sent_other hp rfl,
      .inl ⟨hconn, ho.isClosing, ho.told, ho.order, ho.pending⟩⟩
  · refine ⟨calls ++ [call], hw.sent hp rfl, .inl ⟨hconn, ho.isClosing, ho.told, ?_, ho.pending⟩⟩
    rw [List.filter_append]
    simpa [hreply] using ho.order

theorem Good.sendOther {reports : Bool} (h : Good link k pending r)
    (hp : Reply link p) : Good link k pending (r.sendPacket p false reports).1 := by
  refine Good.sendPacket ?_
  have hput := put_spec r p false
  generalize (r.put p false).1 = r' at hput ⊢
  cases hput with
  | nothing network => exact h.network network
  | cut hconn network => exact @Good.put_other link r k pending network (.cut p) h hconn hp
  | whole hconn network =>
    simpa using @Good.put_other link r k pending network (.whole p) h hconn hp

theorem Good.wire (h : Good link k pending r) : ∃ calls, Wire link calls r := by
  obtain ⟨calls, hw, -⟩ := h
  exact ⟨calls, hw⟩

theorem Good.sendWithPlaypath (h : Good link k pending r)
    (hk : (handshake r.streamId)[k]? = some call) (hreply : call.isReply = false)
    (hargs : call.args link = [.null, .string link.playpath])
    (hstream : UInt32.ofInt call.onStream = 0) :
    Good link (k + 1) pending (r.sendWithPlaypath call.name).1 := by
  obtain ⟨calls, hw⟩ := h.nextInvoke.wire
  unfold RTMP.sendWithPlaypath RTMP.sendInvoke
  dsimp only
  split
  · exact h.nextInvoke.mono (Nat.le_succ k) (List.Sublist.refl _)
  · rename_i body hbody
    rw [hw.link_eq] at hbody
    have hcarries : Carries link call (invokePacket 3 sizeMedium 0 0 body) :=
      hstream ▸ carries_playpath hargs hw.numInvokes hbody
    simpa using h.nextInvoke.sendCall false true hk hreply hcarries

theorem Good.sendCreateStream (h : Good link 3 [] r) :
    Good link 4 [av "createStream"] r.sendCreateStream.1 := by
  obtain ⟨calls, hw⟩ := h.nextInvoke.wire
  unfold RTMP.sendCreateStream RTMP.sendInvoke
  dsimp only
  split
  · exact h.nextInvoke.mono (Nat.le_succ 3) (List.nil_sublist _)
  · rename_i body hbody
    have hcarries : Carries link .createStream (invokePacket 3 sizeMedium 0 0 body) :=
      @carries_null _ .createStream _ _ _ _ _ _ rfl hw.numInvokes hbody
    exact h.nextInvoke.sendCall true true rfl rfl hcarries

theorem Good.sendPublish (h : Good link 4 [] r) :
    Good link 5 [av "publish"] r.sendPublish.1 := by
  obtain ⟨calls, hw⟩ := h.nextInvoke.wire
  unfold RTMP.sendPublish RTMP.sendInvoke
  dsimp only
  split
  · exact h.nextInvoke.mono (Nat.le_succ 4) (List.nil_sublist _)
  · rename_i body hbody
    rw [hw.link_eq] at hbody
    have hcarries : Carries link (.publish r.streamId)
        (invokePacket 4 sizeLarge 0 (UInt32.ofInt r.streamId) body) :=
      carries_publish hw.numInvokes hbody
    exact h.nextInvoke.sendCall true true rfl rfl hcarries

/-- `r'` is `r` after it sent a reply, unless that did not fit. -/
inductive Replied (link : RTMPLink) (r : RTMP) : RTMP → Prop
  | nothing : Replied link r r
  | sent {p : RTMPPacket} (reports : Bool) (hp : Reply link p) :
      Replied link r (r.sendPacket p false reports).1

theorem replied_sendInvoke {nChannel headerType : Nat} {nTimeStamp : UInt32}
    {body : Option (List UInt8)} (hbody : ∀ b, body = some b →
      Reply link (invokePacket nChannel headerType nTimeStamp 0 b)) :
    Replied link r (r.sendInvoke nChannel headerType nTimeStamp 0 body false).1 := by
  cases body with
  | none => exact .nothing
  | some b => exact .sent true (hbody b rfl)

/-- Nothing that `Good` looks at is in the counters of the reader. -/
theorem Good.counted (h : Good link k pending r) (nBytesIn nBytesInSent nClientBW : Int) :
    Good link k pending { r with nBytesIn, nBytesInSent, nClientBW } := by
  obtain ⟨calls, hw, ho | hc⟩ := h
  · exact ⟨calls, hw.keep rfl,
      .inl ⟨ho.connected, ho.isClosing, ho.told, ho.order, ho.pending⟩⟩
  · exact ⟨calls, hw.keep rfl,
      .inr ⟨hc.connected, hc.isClosing, hc.bPlaying, hc.methodCalls, hc.told, hc.order⟩⟩

theorem Wire.sendCheckBW (hw : Wire link calls r) :
    Replied link r.nextInvoke r.sendCheckBW.1 :=
  replied_sendInvoke fun _ hbody => .inr ⟨.checkBW, rfl,
    @carries_null _ .checkBW _ _ _ _ _ _ rfl hw.nextInvoke.numInvokes hbody⟩

theorem replied_sendPong {txn : Int} (htxn : IsInt txn) : Replied link r (r.sendPong txn).1 :=
  replied_sendInvoke fun _ hbody => .inr ⟨.pong, rfl,
    @carries_null _ .pong _ _ _ _ _ _ rfl htxn hbody⟩

theorem Wire.sendCheckBWResult (hw : Wire link calls r) {txn : Int} (htxn : IsInt txn) :
    Replied link { r with nBWCheckCounter := (r.nBWCheckCounter + 1).bmod (2 ^ 32) }
      (r.sendCheckBWResult txn).1 :=
  replied_sendInvoke fun _ hbody => .inr ⟨.checkBWResult r.nBWCheckCounter, rfl,
    @carries_number _ (.checkBWResult r.nBWCheckCounter) _ _ _ _ _ _ _ rfl htxn
      hw.nBWCheckCounter hbody⟩

theorem replied_sendCtrlPong (nObject : Nat) : Replied link r (r.sendCtrlPong nObject).1 :=
  .sent false (.inl (show (4 : UInt8) ≠ 0x14 by decide))

theorem Good.replied {r' : RTMP} (h : Good link k pending r) (hr : Replied link r r') :
    Good link k pending r' := by
  cases hr with
  | nothing => exact h
  | sent reports hp => exact h.sendOther hp

theorem Good.counter (h : Good link k pending r) (n : Int) :
    Good link k pending { r with nBWCheckCounter := n.bmod (2 ^ 32) } := by
  obtain ⟨calls, hw, ho | hc⟩ := h
  · exact ⟨calls, ⟨hw.link_eq, hw.carried, hw.numInvokes, isInt_bmod n, hw.streamId⟩,
      .inl ⟨ho.connected, ho.isClosing, ho.told, ho.order, ho.pending⟩⟩
  · exact ⟨calls, ⟨hw.link_eq, hw.carried, hw.numInvokes, isInt_bmod n, hw.streamId⟩,
      .inr ⟨hc.connected, hc.isClosing, hc.bPlaying, hc.methodCalls, hc.told, hc.order⟩⟩

theorem Good.sendCheckBW (h : Good link k pending r) : Good link k pending r.sendCheckBW.1 := by
  obtain ⟨calls, hw⟩ := h.wire
  exact h.nextInvoke.replied hw.sendCheckBW

theorem Good.sendCheckBWResult (h : Good link k pending r) {txn : Int} (htxn : IsInt txn) :
    Good link k pending (r.sendCheckBWResult txn).1 := by
  obtain ⟨calls, hw⟩ := h.wire
  exact (h.counter _).replied (hw.sendCheckBWResult htxn)

/-! ## What the server calls -/

/-- The calls whose results the session can wait for, and how far it has come then. -/
inductive Handshaking (link : RTMPLink) (r : RTMP) : Prop
  | connecting (h : Good link 1 [av "connect"] r)
  | creating (h : Good link 4 [av "createStream"] r)
  | publishing (h : Good link 5 [av "publish"] r)

/-- A session that only loses calls it waits for, or is played. -/
theorem Good.forget (h : Good link k pending r) (hconn : r.connected = true)
    {methodCalls : List Method} (hcalls : methodCalls.Sublist r.methodCalls) (bPlaying : Bool) :
    Good link k pending { r with methodCalls, bPlaying } := by
  obtain ⟨calls, hw, ho⟩ := h.open_of_connected hconn
  exact ⟨calls, hw.keep rfl,
    .inl ⟨hconn, ho.isClosing, ho.told, ho.order, (hcalls.map Method.name).trans ho.pending⟩⟩

/-- The one call that is waited for is found, and none is left. -/
theorem Good.found {x : List UInt8} {txn : Int} {m : Method} (h : Good link k [x] r)
    (hconn : r.connected = true)
    (hfind : r.methodCalls.find? (fun call => call.num = txn) = some m) :
    m.name = x ∧
      Good link k [] { r with methodCalls := r.methodCalls.eraseP fun call => call.num = txn } := by
  obtain ⟨calls, hw, ho⟩ := h.open_of_connected hconn
  have hmem : m ∈ r.methodCalls := List.mem_of_find?_eq_some hfind
  have hname : m.name = x :=
    List.mem_singleton.mp (ho.pending.subset (List.mem_map_of_mem hmem))
  have hlength : r.methodCalls.length ≤ 1 := by
    simpa using ho.pending.length_le
  have hone : r.methodCalls = [m] := by
    obtain ⟨m', hone⟩ := List.length_eq_one_iff.mp
      (Nat.le_antisymm hlength (List.length_pos_of_mem hmem))
    rw [hone] at hmem ⊢
    rw [List.mem_singleton.mp hmem]
  refine ⟨hname, calls, hw.keep rfl, .inl ⟨hconn, ho.isClosing, ho.told, ho.order, ?_⟩⟩
  have hnum : m.num = txn := by simpa using List.find?_some hfind
  simp [hone, hnum]

/-- A failed stream is closed without a call. -/
theorem Good.fail (h : Good link k pending r) (hconn : r.connected = true) (error : RTMPErrorCode)
    (k' : Nat) (pending' : List (List UInt8)) :
    Good link k' pending' (RTMP.close { r with streamId := -1 } (some error)) := by
  obtain ⟨calls, hw, ho⟩ := h.open_of_connected hconn
  have hint : IsInt 0 := ⟨by decide, by decide⟩
  have hgone : IsInt (-1) := ⟨by decide, by decide⟩
  refine ⟨calls, ?_, .inr ?_⟩
  · unfold RTMP.close
    rw [if_neg (by simp [ho.isClosing])]
    dsimp only
    rw [if_pos ho.connected, if_neg (by decide)]
    exact ⟨hw.link_eq, hw.carried, hint, hint, hgone⟩
  · unfold RTMP.close
    rw [if_neg (by simp [ho.isClosing])]
    dsimp only
    rw [if_pos ho.connected, if_neg (by decide)]
    refine ⟨rfl, rfl, rfl, rfl, by simp [ho.told], r.streamId, ?_⟩
    exact (ho.order.trans (List.take_sublist _ _)).trans (List.sublist_append_left _ _)

theorem Handshaking.good (h : Handshaking link r) : ∃ k pending, Good link k pending r := by
  cases h with
  | connecting h => exact ⟨_, _, h⟩
  | creating h => exact ⟨_, _, h⟩
  | publishing h => exact ⟨_, _, h⟩

/-- What keeps a session good however far it has come keeps it in step. -/
theorem Handshaking.keep {r' : RTMP} (h : Handshaking link r)
    (hkeep : ∀ k pending, Good link k pending r → Good link k pending r') :
    Handshaking link r' := by
  cases h with
  | connecting h => exact .connecting (hkeep _ _ h)
  | creating h => exact .creating (hkeep _ _ h)
  | publishing h => exact .publishing (hkeep _ _ h)

theorem Handshaking.close (h : Handshaking link r) (error : Option RTMPErrorCode) :
    Handshaking link (r.close error) :=
  h.keep fun _ _ hgood => hgood.close _ _ _

/-- The answer to `connect`. -/
theorem Good.sendHandshake (h : Good link 1 [] r) :
    Good link 4 [av "createStream"]
      r.sendReleaseStream.1.sendFCPublish.1.sendCreateStream.1 := by
  have hrelease : Good link 2 [] r.sendReleaseStream.1 :=
    @Good.sendWithPlaypath link .releaseStream r 1 [] h rfl rfl rfl rfl
  have hpublish : Good link 3 [] r.sendReleaseStream.1.sendFCPublish.1 :=
    @Good.sendWithPlaypath link .fcPublish _ 2 [] hrelease rfl rfl rfl rfl
  exact hpublish.sendCreateStream

theorem Handshaking.handleResult {obj : AMFObject} {txn : Int} {r' : RTMP} (h : Handshaking link r)
    (hconn : r.connected = true) (hr : r.handleResult obj txn = some r') : Handshaking link r' := by
  unfold RTMP.handleResult at hr
  split at hr
  · exact Option.some.inj hr ▸ h
  · rename_i m hfind
    cases h with
    | connecting h =>
      obtain ⟨hname, hgood⟩ := h.found hconn hfind
      rw [if_pos hname] at hr
      exact Option.some.inj hr ▸ .creating hgood.sendHandshake
    | creating h =>
      obtain ⟨hname, hgood⟩ := h.found hconn hfind
      rw [hname, if_neg (by decide), if_pos rfl] at hr
      obtain ⟨streamId, hid, rfl⟩ := Option.map_eq_some_iff.mp hr
      obtain ⟨number, -, hcast⟩ := Option.bind_eq_some_iff.mp hid
      refine .publishing (Good.sendPublish ?_)
      obtain ⟨calls, hw, ho⟩ := hgood.open_of_connected hconn
      exact ⟨calls, ⟨hw.link_eq, hw.carried, hw.numInvokes, hw.nBWCheckCounter,
        isInt_of_castInt hcast⟩, .inl ⟨hconn, ho.isClosing, ho.told, ho.order, ho.pending⟩⟩
    | publishing h =>
      obtain ⟨hname, hgood⟩ := h.found hconn hfind
      rw [hname, if_neg (by decide), if_neg (by decide), if_pos (.inr rfl)] at hr
      rw [← Option.some.inj hr]
      exact .publishing ((hgood.forget hconn (List.Sublist.refl _) true).mono (Nat.le_refl 5)
        (List.nil_sublist _))

theorem Handshaking.handleStatus (h : Handshaking link r) (hconn : r.connected = true)
    (code : List UInt8) : Handshaking link (r.handleStatus code) := by
  unfold RTMP.handleStatus
  split
  · obtain ⟨k, pending, hgood⟩ := h.good
    exact .connecting (hgood.fail hconn _ _ _)
  · split
    · exact h.keep fun _ _ hgood => hgood.forget hconn List.eraseP_sublist true
    · split
      · exact h.keep fun _ _ hgood => hgood.forget hconn List.eraseP_sublist true
      · split
        · exact h.close none
        · exact h

theorem isInt_of_txnOf {obj : AMFObject} {txn : Int} (h : RTMP.txnOf obj = some txn) :
    IsInt txn := by
  obtain ⟨number, -, hcast⟩ := Option.bind_eq_some_iff.mp h
  exact isInt_of_castInt hcast

theorem Handshaking.eraseCall (h : Handshaking link r) (hconn : r.connected = true)
    (name : List UInt8) : Handshaking link (r.eraseCall name) :=
  h.keep fun _ _ hgood => hgood.forget hconn List.eraseP_sublist r.bPlaying

/-- What `HandleInvoke` does for each method. -/
inductive Handled (r : RTMP) (obj : AMFObject) : List UInt8 → Option RTMP → Prop
  | result : Handled r obj (av "_result") ((RTMP.txnOf obj).bind (r.handleResult obj))
  | bwDone : Handled r obj (av "onBWDone")
      (some (if r.nBWCheckCounter = 0 then r.sendCheckBW.1 else r))
  | unsubscribed : Handled r obj (av "onFCUnsubscribe") (some (r.close none))
  | ping : Handled r obj (av "ping") ((RTMP.txnOf obj).map fun txn => (r.sendPong txn).1)
  | bwCheck : Handled r obj (av "_onbwcheck")
      ((RTMP.txnOf obj).map fun txn => (r.sendCheckBWResult txn).1)
  | close : Handled r obj (av "close") (some (r.close (some .serverRequestedClose)))
  | status : Handled r obj (av "onStatus")
      ((((RTMP.getProp obj 3).bind RTMP.getObject).bind fun obj2 =>
        RTMP.getString (RTMP.getPropNamed obj2 (av "code"))).map r.handleStatus)
  | forgets {method name : List UInt8} (hname : name ∈ [av "_checkbw", av "set_playlist"]) :
      Handled r obj method (some (r.eraseCall name))
  | ignored {method : List UInt8} : Handled r obj method (some r)

theorem handled_handleCall (r : RTMP) (method : List UInt8) (obj : AMFObject) :
    Handled r obj method (r.handleCall method obj) := by
  unfold RTMP.handleCall
  by_cases h : method = av "_result"
  · rw [if_pos h, h]
    exact .result
  rw [if_neg h]
  clear h
  by_cases h : method = av "onBWDone"
  · rw [if_pos h, h]
    exact .bwDone
  rw [if_neg h]
  clear h
  by_cases h : method = av "onFCSubscribe"
  · rw [if_pos h]
    exact .ignored
  rw [if_neg h]
  clear h
  by_cases h : method = av "onFCUnsubscribe"
  · rw [if_pos h, h]
    exact .unsubscribed
  rw [if_neg h]
  clear h
  by_cases h : method = av "ping"
  · rw [if_pos h, h]
    exact .ping
  rw [if_neg h]
  clear h
  by_cases h : method = av "_onbwcheck"
  · rw [if_pos h, h]
    exact .bwCheck
  rw [if_neg h]
  clear h
  by_cases h : method = av "_onbwdone"
  · rw [if_pos h]
    exact .forgets (by simp)
  rw [if_neg h]
  clear h
  by_cases h : method = av "_error"
  · rw [if_pos h]
    exact .ignored
  rw [if_neg h]
  clear h
  by_cases h : method = av "close"
  · rw [if_pos h, h]
    exact .close
  rw [if_neg h]
  clear h
  by_cases h : method = av "onStatus"
  · rw [if_pos h, h]
    exact .status
  rw [if_neg h]
  clear h
  by_cases h : method = av "playlist_ready"
  · rw [if_pos h]
    exact .forgets (by simp)
  rw [if_neg h]
  exact .ignored

theorem Handshaking.handleCall {method : List UInt8} {obj : AMFObject} {r' : RTMP}
    (h : Handshaking link r) (hconn : r.connected = true)
    (hr : r.handleCall method obj = some r') : Handshaking link r' := by
  have hhandled := handled_handleCall r method obj
  rw [hr] at hhandled
  generalize ho : some r' = o at hhandled
  cases hhandled with
  | result =>
    obtain ⟨txn, -, hr⟩ := Option.bind_eq_some_iff.mp ho.symm
    exact h.handleResult hconn hr
  | bwDone =>
    rw [Option.some.inj ho]
    split
    · exact h.keep fun _ _ hgood => hgood.sendCheckBW
    · exact h
  | unsubscribed => exact Option.some.inj ho ▸ h.close none
  | ping =>
    obtain ⟨txn, htxn, rfl⟩ := Option.map_eq_some_iff.mp ho.symm
    exact h.keep fun _ _ hgood => hgood.replied (replied_sendPong (isInt_of_txnOf htxn))
  | bwCheck =>
    obtain ⟨txn, htxn, rfl⟩ := Option.map_eq_some_iff.mp ho.symm
    exact h.keep fun _ _ hgood => hgood.sendCheckBWResult (isInt_of_txnOf htxn)
  | close => exact Option.some.inj ho ▸ h.close _
  | status =>
    obtain ⟨code, -, rfl⟩ := Option.map_eq_some_iff.mp ho.symm
    exact h.handleStatus hconn code
  | forgets hname => exact Option.some.inj ho ▸ h.eraseCall hconn _
  | ignored => exact Option.some.inj ho ▸ h

theorem Handshaking.handleInvoke {body : List UInt8} {r' : RTMP} (h : Handshaking link r)
    (hconn : r.connected = true) (hr : r.handleInvoke body = some r') : Handshaking link r' := by
  unfold RTMP.handleInvoke at hr
  split at hr
  · cases hr
  split at hr
  · exact Option.some.inj hr ▸ h
  split at hr
  · exact Option.some.inj hr ▸ h
  · cases hr
  · obtain ⟨method, -, hr⟩ := Option.bind_eq_some_iff.mp hr
    exact h.handleCall hconn hr

theorem Handshaking.clientPacket {packetType : UInt8} {body : List UInt8} {r' : RTMP}
    (h : Handshaking link r) (hconn : r.connected = true)
    (hr : r.clientPacket packetType body = some r') : Handshaking link r' := by
  unfold RTMP.clientPacket at hr
  split at hr
  · rw [← Option.some.inj hr, RTMP.handleCtrl]
    split
    · exact h.keep fun _ _ hgood => hgood.replied (replied_sendCtrlPong _)
    · exact h
  · split at hr
    · cases hr
    · exact Option.some.inj hr ▸ h
  · split at hr
    · cases hr
    · rw [← Option.some.inj hr]
      exact h.keep fun _ _ hgood => hgood.counted _ _ _
  · exact h.handleInvoke hconn hr
  · exact h.handleInvoke hconn hr
  · exact Option.some.inj hr ▸ h

theorem Handshaking.handlePacket {packetType : UInt8} {body : List UInt8} {r' : RTMP}
    (h : Handshaking link r) (hconn : r.connected = true)
    (hr : r.handlePacket packetType body = some r') : Handshaking link r' := by
  unfold RTMP.handlePacket at hr
  split at hr
  · exact Option.some.inj hr ▸ h
  · exact h.clientPacket hconn hr

/-! ## Reading -/

theorem Handshaking.bytesRead (h : Handshaking link r) (nRead : Nat) :
    Handshaking link (r.bytesRead nRead) := by
  have hother : Reply link
      { headerType := sizeMedium, packetType := 3, nChannel := 2, nBodySize := 4,
        body := encodeInt32 (UInt32.ofInt ((r.nBytesIn + nRead).bmod (2 ^ 32))).toNat } :=
    .inl (show (3 : UInt8) ≠ 0x14 by decide)
  unfold RTMP.bytesRead
  dsimp only
  split
  · exact h.keep fun _ _ hgood => (hgood.counted _ _ _).sendOther hother
  · exact h.keep fun _ _ hgood => hgood.counted _ _ _

theorem Handshaking.readAll {reads : List Nat} (h : Handshaking link r) :
    Handshaking link (r.readAll reads).1 := by
  induction reads generalizing r with
  | nil => exact h
  | cons nRead reads ih =>
    rw [RTMP.readAll]
    split
    · exact ih (h.bytesRead nRead)
    · exact h

theorem sendFCUnpublish_told (r : RTMP) : r.sendFCUnpublish.told = r.told := by
  unfold RTMP.sendFCUnpublish
  dsimp only
  split
  · rfl
  · exact (put_told _ _ _).1

theorem sendDeleteStream_told (r : RTMP) (dStreamId : Int) :
    (r.sendDeleteStream dStreamId).told = r.told := by
  unfold RTMP.sendDeleteStream
  dsimp only
  split
  · rfl
  · exact (put_told _ _ _).1

/-- Without an error to pass on, nothing is told. -/
theorem close_none_told (r : RTMP) : (r.close none).told = r.told := by
  unfold RTMP.close
  split
  · rfl
  · dsimp only
    split
    · split
      · simp [sendDeleteStream_told, sendFCUnpublish_told]
      · simp
    · rfl

theorem bytesRead_told (r : RTMP) (nRead : Nat) : (r.bytesRead nRead).told = r.told := by
  unfold RTMP.bytesRead RTMP.sendBytesReceived
  dsimp only
  split
  · rcases sendPacket_cases _ _ false false with heq | ⟨error, hnone, heq⟩
    · rw [heq, (put_told _ _ _).1]
    · rw [heq, hnone rfl, close_none_told, (put_told _ _ _).1]
  · rfl

theorem readAll_told (r : RTMP) (reads : List Nat) : (r.readAll reads).1.told = r.told := by
  induction reads generalizing r with
  | nil => rfl
  | cons nRead reads ih =>
    rw [RTMP.readAll]
    split
    · exact (ih _).trans (bytesRead_told r nRead)
    · rfl

/-! ## A message that comes too late -/

/-- `r'` is the closed session `r` after it handled a message: it may publish, but
it says nothing more. -/
structure Shut (r r' : RTMP) : Prop where
  wire : r'.wire = r.wire
  told : r'.told = r.told
  connected : r'.connected = false
  isClosing : r'.isClosing = true
  methodCalls : r'.methodCalls = []

namespace Shut

variable {r₀ : RTMP}

theorem close (h : Shut r₀ r) (error : Option RTMPErrorCode) : Shut r₀ (r.close error) := by
  rwa [RTMP.close, if_pos h.isClosing]

theorem sendPacket (h : Shut r₀ r) (p : RTMPPacket) (queue reports : Bool) :
    Shut r₀ (r.sendPacket p queue reports).1 := by
  have hput : r.put p queue = (r, .failed false) := by
    rw [RTMP.put, if_neg (by simp [h.connected])]
  rw [RTMP.sendPacket, hput]
  exact h.close _

theorem sendInvoke (h : Shut r₀ r) (nChannel headerType : Nat) (nTimeStamp nInfoField2 : UInt32)
    (body : Option (List UInt8)) (queue : Bool) :
    Shut r₀ (r.sendInvoke nChannel headerType nTimeStamp nInfoField2 body queue).1 := by
  cases body with
  | none => exact h
  | some body => exact h.sendPacket _ _ _

theorem forget (h : Shut r₀ r) (f : Method → Bool) (bPlaying : Bool) :
    Shut r₀ { r with methodCalls := r.methodCalls.eraseP f, bPlaying } :=
  ⟨h.wire, h.told, h.connected, h.isClosing, by simp [h.methodCalls]⟩

theorem handleStatus (h : Shut r₀ r) (code : List UInt8) : Shut r₀ (r.handleStatus code) := by
  unfold RTMP.handleStatus
  split
  · exact close (r := { r with streamId := -1 })
      ⟨h.wire, h.told, h.connected, h.isClosing, h.methodCalls⟩ _
  · split
    · exact h.forget _ true
    · split
      · exact h.forget _ true
      · split
        · exact h.close none
        · exact h

theorem handleCall {method : List UInt8} {obj : AMFObject} {r' : RTMP} (h : Shut r₀ r)
    (hr : r.handleCall method obj = some r') : Shut r₀ r' := by
  have hhandled := handled_handleCall r method obj
  rw [hr] at hhandled
  generalize ho : some r' = o at hhandled
  cases hhandled with
  | result =>
    obtain ⟨txn, -, hr⟩ := Option.bind_eq_some_iff.mp ho.symm
    rw [RTMP.handleResult, h.methodCalls, List.find?_nil] at hr
    exact Option.some.inj hr ▸ h
  | bwDone =>
    rw [Option.some.inj ho]
    split
    · exact sendInvoke (r := r.nextInvoke)
        ⟨h.wire, h.told, h.connected, h.isClosing, h.methodCalls⟩ _ _ _ _ _ _
    · exact h
  | unsubscribed => exact Option.some.inj ho ▸ h.close none
  | ping =>
    obtain ⟨txn, -, rfl⟩ := Option.map_eq_some_iff.mp ho.symm
    exact h.sendInvoke _ _ _ _ _ _
  | bwCheck =>
    obtain ⟨txn, -, rfl⟩ := Option.map_eq_some_iff.mp ho.symm
    exact sendInvoke (r := { r with nBWCheckCounter := (r.nBWCheckCounter + 1).bmod (2 ^ 32) })
      ⟨h.wire, h.told, h.connected, h.isClosing, h.methodCalls⟩ _ _ _ _ _ _
  | close => exact Option.some.inj ho ▸ h.close _
  | status =>
    obtain ⟨code, -, rfl⟩ := Option.map_eq_some_iff.mp ho.symm
    exact h.handleStatus code
  | forgets hname => exact Option.some.inj ho ▸ h.forget _ r.bPlaying
  | ignored => exact Option.some.inj ho ▸ h

theorem handleInvoke {body : List UInt8} {r' : RTMP} (h : Shut r₀ r)
    (hr : r.handleInvoke body = some r') : Shut r₀ r' := by
  unfold RTMP.handleInvoke at hr
  split at hr
  · cases hr
  split at hr
  · exact Option.some.inj hr ▸ h
  split at hr
  · exact Option.some.inj hr ▸ h
  · cases hr
  · obtain ⟨method, -, hr⟩ := Option.bind_eq_some_iff.mp hr
    exact h.handleCall hr

theorem handlePacket {packetType : UInt8} {body : List UInt8} {r' : RTMP} (h : Shut r₀ r)
    (hr : r.handlePacket packetType body = some r') : Shut r₀ r' := by
  unfold RTMP.handlePacket RTMP.clientPacket at hr
  split at hr
  · exact Option.some.inj hr ▸ h
  split at hr
  · rw [← Option.some.inj hr, RTMP.handleCtrl]
    split
    · exact h.sendPacket _ _ _
    · exact h
  · split at hr
    · cases hr
    · exact Option.some.inj hr ▸ h
  · split at hr
    · cases hr
    · rw [← Option.some.inj hr]
      exact ⟨h.wire, h.told, h.connected, h.isClosing, h.methodCalls⟩
  · exact h.handleInvoke hr
  · exact h.handleInvoke hr
  · exact Option.some.inj hr ▸ h

end Shut

/-- A session whose last message came in with the read whose report closed it. -/
structure Late (link : RTMPLink) (s : RTMP) (a : RTMP.Arrival) (r : RTMP) : Prop where
  arrival : ∃ reads packetType body, a = .packet true reads packetType body ∧
    s.connected = true ∧ (s.readAll reads).1.connected = false
  connected : r.connected = false
  told : r.told = []
  sent : ∃ calls streamId, List.Forall₂ (Carries link) calls (invokes r.wire) ∧
    (calls.filter fun call => !call.isReply).Sublist
      (handshake streamId ++ [.fcUnpublish, .deleteStream streamId])

theorem Handshaking.late {reads : List Nat} {packetType : UInt8} {body : List UInt8} {s r' : RTMP}
    (h : Handshaking link r) (hconn : r.connected = true) (hread : r.readAll reads = (s, true))
    (hclosed : s.connected = false) (hr : s.handlePacket packetType body = some r') :
    Late link r (.packet true reads packetType body) r' := by
  have hs : Handshaking link s := by
    have hs := @Handshaking.readAll link r reads h
    rwa [hread] at hs
  have htold : s.told = [] := by
    obtain ⟨k, pending, hgood⟩ := h.good
    obtain ⟨calls, -, ho⟩ := hgood.open_of_connected hconn
    have heq := readAll_told r reads
    rw [hread] at heq
    exact heq.trans ho.told
  obtain ⟨k, pending, calls, hw, ho | hc⟩ := hs.good
  · rw [ho.connected] at hclosed
    cases hclosed
  · have hshut : Shut s r' :=
      Shut.handlePacket ⟨rfl, rfl, hclosed, hc.isClosing, hc.methodCalls⟩ hr
    obtain ⟨streamId, horder⟩ := hc.order
    refine ⟨⟨reads, packetType, body, rfl, hconn, ?_⟩, hshut.connected, hshut.told.trans htold,
      calls, streamId, ?_, horder⟩
    · rw [hread]
      exact hclosed
    · rw [hshut.wire]
      exact hw.carried

/-- Whatever arrives, the session stays in step, or comes too late. -/
theorem Handshaking.step {a : RTMP.Arrival} {r' : RTMP} (h : Handshaking link r)
    (hr : r.step a = some r') : Handshaking link r' ∨ Late link r a r' := by
  unfold RTMP.step at hr
  split at hr
  · cases hr
  rename_i hgo
  have hconn : r.connected = true := by simpa using (not_or.mp hgo).2
  cases a with
  | chunk reads => exact .inl (Option.some.inj hr ▸ h.readAll)
  | readFailed reads timedOut => exact .inl (Option.some.inj hr ▸ h.readAll.close _)
  | packet single reads packetType body =>
    have hread := @Handshaking.readAll link r reads h
    have htold := readAll_told r reads
    obtain ⟨⟨s, all⟩, heq⟩ : ∃ o, r.readAll reads = o := ⟨_, rfl⟩
    rw [heq] at hread htold
    dsimp only at hr
    rw [heq] at hr
    cases all with
    | false => exact .inl (Option.some.inj hr ▸ hread)
    | true =>
      dsimp only at hr
      split at hr
      case isFalse => cases hr
      case isTrue hgoes =>
        by_cases hopen : s.connected = true
        · exact .inl (hread.handlePacket hopen hr)
        · have hclosed : s.connected = false := by simpa using hopen
          rcases hgoes with hconn' | rfl | rfl
          · exact absurd hconn' hopen
          · exact .inr (h.late hconn heq hclosed hr)
          · rw [RTMP.handlePacket, if_pos (.inl rfl)] at hr
            exact .inl (Option.some.inj hr ▸ hread)

/-- The session before its calls: the exchange of signatures has read 3073 bytes. -/
def opened (link : RTMPLink) (network : List WriteResult) : RTMP :=
  { link, network, nBytesIn := 3073 }

theorem good_opened (link : RTMPLink) (network : List WriteResult) :
    Good link 0 [] (opened link network) := by
  have hint : IsInt 0 := ⟨by decide, by decide⟩
  exact ⟨[], ⟨rfl, .nil, hint, hint, hint⟩,
    .inl ⟨rfl, rfl, rfl, List.nil_sublist _, List.nil_sublist _⟩⟩

theorem handshaking_connect1 (link : RTMPLink) (network : List WriteResult) :
    Handshaking link ((opened link network).connect1).1 := by
  have hsend : Good link 1 [av "connect"] (opened link network).sendConnectPacket.1 := by
    have hopened := (good_opened link network).nextInvoke
    obtain ⟨calls, hw⟩ := hopened.wire
    unfold RTMP.sendConnectPacket RTMP.sendInvoke
    dsimp only
    split
    · exact hopened.mono (Nat.zero_le 1) (List.nil_sublist _)
    · rename_i body hbody
      rw [hw.link_eq] at hbody
      exact hopened.sendCall true true rfl rfl (carries_connect hw.numInvokes hbody)
  unfold RTMP.connect1
  split
  · rename_i r heq
    rw [heq] at hsend
    exact .connecting hsend
  · rename_i r heq
    rw [heq] at hsend
    exact .connecting (hsend.close _ _ _)

/-! ## What a server reads -/

/-- A packet in which a server reads a call. -/
def Reads (link : RTMPLink) (call : Call) (p : RTMPPacket) : Prop :=
  p.nInfoField2 = UInt32.ofInt call.onStream ∧
    ∃ txn, IsInt txn ∧ decode p.body false = .ok ((call.message link txn).map (Prod.mk []))

theorem reads_of_carries {ps : List RTMPPacket} (h : List.Forall₂ (Carries link) calls ps) :
    List.Forall₂ (Reads link) calls ps :=
  h.imp fun _ _ hp => ⟨hp.nInfoField2, hp.decode⟩

/-- What gets through to a server: the messages before the first that is cut. -/
def received (wire : List Sent) : List Sent := wire.takeWhile Sent.isWhole

theorem received_prefix (wire : List Sent) :
    ∃ rest, invokes wire = invokes (received wire) ++ rest := by
  refine ⟨invokes (wire.dropWhile Sent.isWhole), ?_⟩
  rw [← invokes_append, received, List.takeWhile_append_dropWhile]

/-- In every run the session is in step, or its last message came too late. -/
theorem handshaking_run {network : List WriteResult} {t : List RTMP.Arrival}
    (h : Runs.run RTMP.step ((opened link network).connect1).1 t = some r) :
    Handshaking link r ∨ ∃ u a s, t = u ++ [a] ∧
      Runs.run RTMP.step ((opened link network).connect1).1 u = some s ∧ Late link s a r := by
  refine Runs.run_induction (P := fun t r => Handshaking link r ∨ ∃ u a s, t = u ++ [a] ∧
    Runs.run RTMP.step ((opened link network).connect1).1 u = some s ∧ Late link s a r)
    (.inl (handshaking_connect1 link network)) ?_ h
  intro t s a r ht hs hr
  rcases hs with hs | ⟨u, b, s₀, -, -, hlate⟩
  · rcases hs.step hr with hr | hr
    · exact .inl hr
    · exact .inr ⟨t, a, s, rfl, ht, hr⟩
  · -- a session that is closed reads no more
    unfold RTMP.step at hr
    rw [if_pos (.inr (by simp [hlate.connected]))] at hr
    cases hr

/-- Whatever the server sends and whatever becomes of the writes, the calls of
the handshake are written in their order, each at most once; those that end a
stream come last and name the stream that was published; a server reads every
call that comes before a message that is cut; the error callback is called at
most once. -/
theorem calls_in_order {network : List WriteResult} {t : List RTMP.Arrival}
    (h : Runs.run RTMP.step ((opened link network).connect1).1 t = some r) :
    ∃ calls streamId,
      List.Forall₂ (Reads link) calls (invokes r.wire) ∧
      (calls.filter fun call => !call.isReply).Sublist
        (handshake streamId ++ [.fcUnpublish, .deleteStream streamId]) ∧
      List.Forall₂ (Reads link) (calls.take (invokes (received r.wire)).length)
        (invokes (received r.wire)) ∧
      r.told.length ≤ 1 := by
  have hsent : ∃ calls streamId, List.Forall₂ (Carries link) calls (invokes r.wire) ∧
      (calls.filter fun call => !call.isReply).Sublist
        (handshake streamId ++ [.fcUnpublish, .deleteStream streamId]) ∧ r.told.length ≤ 1 := by
    rcases handshaking_run h with hstep | ⟨u, a, s, -, -, hlate⟩
    · obtain ⟨k, pending, calls, hw, ho | hc⟩ := hstep.good
      · refine ⟨calls, r.streamId, hw.carried, ?_, by simp [ho.told]⟩
        exact (ho.order.trans (List.take_sublist _ _)).trans (List.sublist_append_left _ _)
      · obtain ⟨streamId, horder⟩ := hc.order
        exact ⟨calls, streamId, hw.carried, horder, hc.told⟩
    · obtain ⟨calls, streamId, hcarried, horder⟩ := hlate.sent
      exact ⟨calls, streamId, hcarried, horder, by simp [hlate.told]⟩
  obtain ⟨calls, streamId, hcarried, horder, htold⟩ := hsent
  have hreads := reads_of_carries hcarried
  obtain ⟨rest, hwire⟩ := received_prefix r.wire
  exact ⟨calls, streamId, hreads, horder, List.forall₂_take_append _ _ rest (hwire ▸ hreads),
    htold⟩

/-- A `_result` with a number, and what a server answers to `createStream`. -/
def resultBody (txn : Int) (streamId : Int) : List UInt8 :=
  ([.string (av "_result"), .number (Binary64.ofInt txn), .null,
    .number (Binary64.ofInt streamId)] : List AMFValue).flatMap valueBytes

/-- A publisher's stream. -/
def keyLink : RTMPLink := { playpath := av "key", app := av "live" }

/-- A message in one chunk with a large header, buffered before it is read. -/
def inOneChunk (packetType : UInt8) (body : List UInt8) : RTMP.Arrival :=
  .packet true [1, 11, body.length] packetType body

/-- The server answers every call, and names the stream 5. -/
def answered : List RTMP.Arrival :=
  [inOneChunk 0x14 (resultBody 1 0), inOneChunk 0x14 (resultBody 4 5),
    inOneChunk 0x14 (resultBody 5 0)]

theorem calls_in_order_answered :
    ∃ r, Runs.run RTMP.step ((opened keyLink []).connect1).1 answered = some r ∧
      ∃ calls streamId,
        List.Forall₂ (Reads keyLink) calls (invokes r.wire) ∧
        (calls.filter fun call => !call.isReply).Sublist
          (handshake streamId ++ [.fcUnpublish, .deleteStream streamId]) ∧
        List.Forall₂ (Reads keyLink) (calls.take (invokes (received r.wire)).length)
          (invokes (received r.wire)) ∧
        r.told.length ≤ 1 := by
  obtain ⟨r, hr⟩ : ∃ r, Runs.run RTMP.step ((opened keyLink []).connect1).1 answered = some r :=
    Option.isSome_iff_exists.mp (by decide +kernel)
  exact ⟨r, hr, calls_in_order hr⟩

/-- When the session publishes, no error was told; if its connection is open, what
was published is the stream that it sends its media on; if it is not, the report
of the bytes read closed it with the last read of the only chunk of the last
message, which was handled all the same. -/
theorem published_on_stream {network : List WriteResult} {t : List RTMP.Arrival}
    (h : Runs.run RTMP.step ((opened link network).connect1).1 t = some r)
    (hplaying : r.bPlaying = true) :
    r.told = [] ∧
    (r.connected = true → ∃ calls, List.Forall₂ (Reads link) calls (invokes r.wire) ∧
      (calls.filter fun call => !call.isReply).Sublist (handshake r.streamId)) ∧
    (r.connected = false → ∃ u s reads packetType body,
      t = u ++ [.packet true reads packetType body] ∧
      Runs.run RTMP.step ((opened link network).connect1).1 u = some s ∧
      s.connected = true ∧ (s.readAll reads).1.connected = false) := by
  rcases handshaking_run h with hstep | ⟨u, a, s, rfl, hu, hlate⟩
  · obtain ⟨k, pending, calls, hw, ho | hc⟩ := hstep.good
    · refine ⟨ho.told, fun _ => ⟨calls, reads_of_carries hw.carried,
        ho.order.trans (List.take_sublist _ _)⟩, fun hclosed => ?_⟩
      rw [ho.connected] at hclosed
      cases hclosed
    · rw [hc.bPlaying] at hplaying
      cases hplaying
  · refine ⟨hlate.told, fun hconn => ?_, fun _ => ?_⟩
    · rw [hlate.connected] at hconn
      cases hconn
    · obtain ⟨reads, packetType, body, rfl, hopen, hclosed⟩ := hlate.arrival
      exact ⟨u, s, reads, packetType, body, rfl, hu, hopen, hclosed⟩

/-- The server says that the stream is published. -/
def publishStart : List UInt8 :=
  ([.string (av "onStatus"), .number (Binary64.ofInt 0), .null,
    .object [(av "code", .string (av "NetStream.Publish.Start"))]] :
    List AMFValue).flatMap valueBytes

/-- A small bandwidth makes the session report what it reads, and the report of
the last message fails. -/
def reportFails : List RTMP.Arrival :=
  [inOneChunk 0x06 [0, 0, 0, 130, 0], inOneChunk 0x14 publishStart]

theorem published_on_stream_answered :
    (∃ r, Runs.run RTMP.step ((opened keyLink []).connect1).1 answered = some r ∧
      r.connected = true ∧ r.told = [] ∧ ∃ calls,
        List.Forall₂ (Reads keyLink) calls (invokes r.wire) ∧
        (calls.filter fun call => !call.isReply).Sublist (handshake r.streamId)) ∧
    ∃ r, Runs.run RTMP.step
        ((opened keyLink [.wrote, .wrote, .failed true]).connect1).1 reportFails = some r ∧
      r.connected = false ∧ r.bPlaying = true ∧ r.told = [] := by
  have hplays : (Runs.run RTMP.step ((opened keyLink []).connect1).1 answered).any
      (fun r => r.bPlaying && r.connected) := by decide +kernel
  have hlate : (Runs.run RTMP.step
      ((opened keyLink [.wrote, .wrote, .failed true]).connect1).1 reportFails).any
      (fun r => r.bPlaying && !r.connected) := by decide +kernel
  obtain ⟨r, hr, hplaying⟩ := (Option.any_eq_true _ _).mp hplays
  obtain ⟨hplaying, hconn⟩ := Bool.and_eq_true_iff.mp hplaying
  obtain ⟨r', hr', hplaying'⟩ := (Option.any_eq_true _ _).mp hlate
  obtain ⟨hplaying', hconn'⟩ := Bool.and_eq_true_iff.mp hplaying'
  obtain ⟨htold, hopen, -⟩ := published_on_stream hr hplaying
  exact ⟨⟨r, hr, hconn, htold, hopen hconn⟩, r', hr', by simpa using hconn', hplaying',
    (published_on_stream hr' hplaying').1⟩

end WaxxyLive.Rtmp
