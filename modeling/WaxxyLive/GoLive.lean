import WaxxyLive.Browse
import WaxxyLive.Broadcast

/-!
# Going live

`HostStreamingViewController.createStream` posts to the Mux API and blocks the
main thread until the completion handler leaves its group; `setupBroadcastVC`
then presents the broadcast. `dataTaskCompletion_eq_ended` says for which
replies the thread is released, `setupBroadcastVC_goLive` that the device then
goes live as `Broadcast.step` has it.
-/

namespace WaxxyLive.GoLive

open Firestore CoreData TabBars Streaming Browse

/-- What `URLSession` hands to the completion handler as a response. -/
inductive URLResponse where
  | http (statusCode : Int)
  | other
  deriving DecidableEq, Repr

structure Reply where
  data : Option (List UInt8)
  response : Option URLResponse
  error : Option String
  deriving DecidableEq, Repr

/-- `as? NSArray` -/
def asArray : Value → Option (List Value)
  | .array xs => some xs
  | _ => none

/-- What the `if let` chain of the handler binds. -/
inductive Chain where
  | raised
  | unbound
  | bound (playback : PlaybackData)
  deriving DecidableEq, Repr

/-- The casts on the first element of `playback_ids`. -/
def firstPlaybackId (streamKey : String) (first : Value) : Option PlaybackData := do
  let playbackIdData ← first.asMap
  let playbackId ← (playbackIdData.dlookup "id").bind Value.asString
  let playbackPolicy ← (playbackIdData.dlookup "policy").bind Value.asString
  return { playbackId, playbackPolicy, streamKey }

/-- The two fields of `data` the chain reads before it takes `playbackData[0]`. -/
def streamData (json : Value) : Option (String × List Value) := do
  let dictionary ← json.asMap
  let theData ← (dictionary.dlookup "data").bind Value.asMap
  let streamKey ← (theData.dlookup "stream_key").bind Value.asString
  let playbackData ← (theData.dlookup "playback_ids").bind asArray
  return (streamKey, playbackData)

/-- `playbackData[0]` raises on an empty array. -/
def chain (json : Value) : Chain :=
  match streamData json with
  | none => .unbound
  | some (_, []) => .raised
  | some (streamKey, first :: _) =>
    match firstPlaybackId streamKey first with
    | some playback => .bound playback
    | none => .unbound

/-- The variables the handler assigns. -/
structure StreamVars where
  playback : PlaybackData := ⟨"", "", ""⟩
  success : String := "failed"
  deriving DecidableEq, Repr

/-- How the handler ends: by a trap, or with the variables and its calls of `group.leave()`. -/
inductive Completion where
  | trapped
  | ended (vars : StreamVars) (leaves : Nat)
  deriving DecidableEq, Repr

section Handler

-- `JSONSerialization.jsonObject(with:options:)`, `none` when it throws
variable (jsonObject : List UInt8 → Option Value)

def dataTaskCompletion (reply : Reply) : Completion :=
  match reply.data, reply.response, reply.error with
  | some data, some (.http statusCode), none =>
    if 200 ≤ statusCode ∧ statusCode ≤ 299 then
      match jsonObject data with
      | none => .trapped
      | some json =>
        match chain json with
        | .raised => .trapped
        | .bound playback => .ended { playback, success := "success" } 1
        | .unbound => .ended {} 1
    else .ended {} 0
  | _, _, _ => .ended {} 0

/-- `group.wait()` on a group that was entered once; `none` when it does not return. -/
def groupWait : Completion → Option StreamVars
  | .trapped => none
  | .ended vars leaves => if leaves = 1 then some vars else none

/-- `createStream`: the database after it and the strings it returns; `none` when it does not
return. -/
def createStream (host : Option Host) (db : Database) (reply : Reply) :
    Option (Database × PlaybackData) := do
  let vars ← groupWait (dataTaskCompletion jsonObject reply)
  match createStreamTarget host with
  | some username =>
    let ref ← hostDocument username
    return (publish db ref vars.playback, vars.playback)
  | none => return (db, vars.playback)

/-- The screen of a broadcast, which `viewDidLoad` starts with the key it was handed. -/
structure MuxViewController where
  playbackStreamKey : Option String
  host : Option Host

def MuxViewController.viewDidLoad (vc : MuxViewController) : Option Mux.MuxLive :=
  vc.playbackStreamKey.map Broadcast.viewDidLoad

structure Outcome where
  db : Database
  presented : Option MuxViewController

def setupBroadcastVC (host : Option Host) (db : Database) (reply : Reply) : Option Outcome := do
  let (db, createdStreamInfo) ← createStream jsonObject host db reply
  if mainStoryboard.instantiates "MuxViewController" .muxViewController then
    return { db, presented := some { playbackStreamKey := createdStreamInfo.streamKey, host } }
  else none

/-! ## Replies -/

/-- A reply without an error, with a 2xx status and the body `json`. -/
def Answers (reply : Reply) (json : Value) : Prop :=
  ∃ data statusCode, reply = ⟨some data, some (.http statusCode), none⟩ ∧
    200 ≤ statusCode ∧ statusCode ≤ 299 ∧ jsonObject data = some json

/-- The body describes a stream: an object whose `data` holds a `stream_key` and `playback_ids`. -/
def Describes (json : Value) (streamKey : String) (playbackIds : List Value) : Prop :=
  ∃ dictionary theData, json = .map dictionary ∧ dictionary.dlookup "data" = some (.map theData) ∧
    theData.dlookup "stream_key" = some (.string streamKey) ∧
    theData.dlookup "playback_ids" = some (.array playbackIds)

/-- A reply that describes the stream `p`. -/
def StreamReply (reply : Reply) (p : PlaybackData) : Prop :=
  ∃ json idData rest, Answers jsonObject reply json ∧
    Describes json p.streamKey (.map idData :: rest) ∧
    idData.dlookup "id" = some (.string p.playbackId) ∧
    idData.dlookup "policy" = some (.string p.playbackPolicy)

end Handler

theorem asString_eq_some {v : Value} {s : String} : v.asString = some s ↔ v = .string s := by
  cases v <;> simp [Value.asString]

theorem asMap_eq_some {v : Value} {fields : List ((_ : String) × Value)} :
    v.asMap = some fields ↔ v = .map fields := by
  cases v <;> simp [Value.asMap]

theorem asArray_eq_some {v : Value} {xs : List Value} : asArray v = some xs ↔ v = .array xs := by
  cases v <;> simp [asArray]

theorem streamData_eq_some {json : Value} {streamKey : String} {playbackIds : List Value} :
    streamData json = some (streamKey, playbackIds) ↔ Describes json streamKey playbackIds := by
  simp only [streamData, Option.bind_eq_bind, Option.bind_eq_some_iff, Option.pure_def,
    Option.some.injEq, Prod.mk.injEq, asMap_eq_some, asString_eq_some, asArray_eq_some]
  constructor
  · rintro ⟨dictionary, hjson, theData, ⟨_, hdata, rfl⟩, key, ⟨_, hkey, rfl⟩, ids, ⟨_, hids, rfl⟩,
      rfl, rfl⟩
    exact ⟨dictionary, theData, hjson, hdata, hkey, hids⟩
  · rintro ⟨dictionary, theData, hjson, hdata, hkey, hids⟩
    exact ⟨dictionary, hjson, theData, ⟨_, hdata, rfl⟩, streamKey, ⟨_, hkey, rfl⟩, playbackIds,
      ⟨_, hids, rfl⟩, rfl, rfl⟩

theorem firstPlaybackId_eq_some {streamKey : String} {first : Value} {p : PlaybackData} :
    firstPlaybackId streamKey first = some p ↔ p.streamKey = streamKey ∧
      ∃ idData, first = .map idData ∧ idData.dlookup "id" = some (.string p.playbackId) ∧
        idData.dlookup "policy" = some (.string p.playbackPolicy) := by
  rcases p with ⟨playbackId, playbackPolicy, key⟩
  simp only [firstPlaybackId, Option.bind_eq_bind, Option.bind_eq_some_iff, Option.pure_def,
    Option.some.injEq, PlaybackData.mk.injEq, asMap_eq_some, asString_eq_some]
  constructor
  · rintro ⟨idData, hfirst, id, ⟨_, hid, rfl⟩, policy, ⟨_, hpolicy, rfl⟩, rfl, rfl, rfl⟩
    exact ⟨rfl, idData, hfirst, hid, hpolicy⟩
  · rintro ⟨rfl, idData, hfirst, hid, hpolicy⟩
    exact ⟨idData, hfirst, playbackId, ⟨_, hid, rfl⟩, playbackPolicy, ⟨_, hpolicy, rfl⟩, rfl, rfl,
      rfl⟩

theorem chain_eq_raised {json : Value} :
    chain json = .raised ↔ ∃ streamKey, Describes json streamKey [] := by
  simp only [← streamData_eq_some]
  unfold chain
  split
  case h_1 h => simp [h]
  case h_2 streamKey h => simp [h]
  case h_3 streamKey first rest h =>
    cases firstPlaybackId streamKey first <;> simp [h]

theorem chain_eq_bound {json : Value} {p : PlaybackData} :
    chain json = .bound p ↔ ∃ idData rest, Describes json p.streamKey (.map idData :: rest) ∧
      idData.dlookup "id" = some (.string p.playbackId) ∧
      idData.dlookup "policy" = some (.string p.playbackPolicy) := by
  simp only [← streamData_eq_some]
  unfold chain
  split
  case h_1 h => simp [h]
  case h_2 streamKey h => simp [h]
  case h_3 streamKey first rest h =>
    have hbound : firstPlaybackId streamKey first = some p ↔ p.streamKey = streamKey ∧
        ∃ idData, first = .map idData ∧ idData.dlookup "id" = some (.string p.playbackId) ∧
          idData.dlookup "policy" = some (.string p.playbackPolicy) := firstPlaybackId_eq_some
    have hmatch : (match firstPlaybackId streamKey first with
        | some playback => Chain.bound playback
        | none => Chain.unbound) = .bound p ↔ firstPlaybackId streamKey first = some p := by
      cases firstPlaybackId streamKey first <;> simp
    rw [hmatch, hbound, h]
    simp only [Option.some.injEq, Prod.mk.injEq, List.cons.injEq]
    constructor
    · rintro ⟨rfl, idData, rfl, hid, hpolicy⟩
      exact ⟨idData, rest, ⟨rfl, rfl, rfl⟩, hid, hpolicy⟩
    · rintro ⟨idData, rest', ⟨rfl, rfl, rfl⟩, hid, hpolicy⟩
      exact ⟨rfl, idData, rfl, hid, hpolicy⟩

/-! ## The handler and the wait -/

variable {jsonObject : List UInt8 → Option Value}

/-- The handler leaves the group exactly on an answer whose chain does not raise. -/
theorem dataTaskCompletion_eq_ended {reply : Reply} {vars : StreamVars} :
    dataTaskCompletion jsonObject reply = .ended vars 1 ↔ ∃ json, Answers jsonObject reply json ∧
      ((∃ p, chain json = .bound p ∧ vars = ⟨p, "success"⟩) ∨
        chain json = .unbound ∧ vars = {}) := by
  constructor
  · intro h
    unfold dataTaskCompletion at h
    split at h
    case h_2 => simp at h
    case h_1 data statusCode hdata hresponse herror =>
      split_ifs at h with hstatus
      · cases hjson : jsonObject data with
        | none => simp [hjson] at h
        | some json =>
          have hreply : reply = ⟨some data, some (.http statusCode), none⟩ := by
            rcases reply with ⟨_, _, _⟩
            simp only at hdata hresponse herror
            rw [hdata, hresponse, herror]
          refine ⟨json, ⟨data, statusCode, hreply, hstatus.1, hstatus.2, hjson⟩, ?_⟩
          cases hchain : chain json with
          | raised => simp [hjson, hchain] at h
          | unbound => exact .inr ⟨rfl, by simpa [hjson, hchain, eq_comm] using h⟩
          | bound p => exact .inl ⟨p, rfl, by simpa [hjson, hchain, eq_comm] using h⟩
      · simp at h
  · rintro ⟨json, ⟨data, statusCode, rfl, hlow, hhigh, hjson⟩, ⟨p, hchain, rfl⟩ | ⟨hchain, rfl⟩⟩ <;>
      simp [dataTaskCompletion, hlow, hhigh, hjson, hchain]

theorem groupWait_eq_some {c : Completion} {vars : StreamVars} :
    groupWait c = some vars ↔ c = .ended vars 1 := by
  cases c with
  | trapped => simp [groupWait]
  | ended vars' leaves => simp [groupWait, and_comm]

variable (jsonObject) in
/-- The handler runs to its end and leaves the group once, and `createStream` returns for every host
whose username, if it has one, addresses a document. -/
structure GetsPastWait (reply : Reply) : Prop where
  ended : ∃ vars, dataTaskCompletion jsonObject reply = .ended vars 1
  returns : ∀ host db, (∀ username, createStreamTarget host = some username →
    (hostDocument username).isSome) → (createStream jsonObject host db reply).isSome

/-- **The wait.** The main thread is released exactly on a 2xx reply without an error whose body
`JSONSerialization` takes, unless that body has a `stream_key` and an empty `playback_ids`. -/
theorem gets_past_wait_iff (jsonObject : List UInt8 → Option Value) (reply : Reply) :
    GetsPastWait jsonObject reply ↔
      ∃ json, Answers jsonObject reply json ∧ ∀ streamKey, ¬ Describes json streamKey [] := by
  constructor
  · rintro ⟨⟨vars, hended⟩, -⟩
    rcases dataTaskCompletion_eq_ended.mp hended with ⟨json, hanswers, hchain⟩
    refine ⟨json, hanswers, fun streamKey hempty => ?_⟩
    rw [chain_eq_raised.mpr ⟨streamKey, hempty⟩] at hchain
    simp at hchain
  · rintro ⟨json, hanswers, hempty⟩
    have hended : ∃ vars, dataTaskCompletion jsonObject reply = .ended vars 1 := by
      cases hchain : chain json with
      | raised =>
        rcases chain_eq_raised.mp hchain with ⟨streamKey, h⟩
        exact absurd h (hempty streamKey)
      | unbound => exact ⟨{}, dataTaskCompletion_eq_ended.mpr ⟨json, hanswers, .inr ⟨hchain, rfl⟩⟩⟩
      | bound p =>
        exact ⟨_, dataTaskCompletion_eq_ended.mpr ⟨json, hanswers, .inl ⟨p, hchain, rfl⟩⟩⟩
    refine ⟨hended, fun host db hhost => ?_⟩
    rcases hended with ⟨vars, hended⟩
    have hwait := groupWait_eq_some.mpr hended
    cases htarget : createStreamTarget host with
    | none => simp [createStream, hwait, htarget]
    | some username =>
      rcases Option.isSome_iff_exists.mp (hhost username htarget) with ⟨ref, href⟩
      simp [createStream, hwait, htarget, href]

/-- A reply with status 500 blocks the main thread for good. -/
theorem server_error_blocks :
    ¬ ∀ (jsonObject : List UInt8 → Option Value) (reply : Reply), GetsPastWait jsonObject reply := by
  intro h
  rcases (h (fun _ => none) ⟨some [], some (.http 500), none⟩).ended with ⟨vars, hended⟩
  simp [dataTaskCompletion] at hended

/-! ## All or nothing -/

/-- The keys `createStream` writes below `stream`. -/
def playbackKeys : List String := ["playbackId", "playbackPolicy", "streamKey"]

theorem fields_dlookup_eq_none {p : PlaybackData} {key : String} :
    p.fields.dlookup key = none ↔ key ∉ playbackKeys := by
  simp only [PlaybackData.fields, dlookup_cons, List.dlookup_nil, playbackKeys]
  split_ifs with h₁ h₂ h₃ <;> simp [*]

/-- Merging a stream entry sets its keys and keeps the others. -/
theorem mergeFields_dlookup (fields : List ((_ : String) × Value)) (p : PlaybackData)
    (key : String) : (mergeFields fields p.fields).dlookup key =
      (p.fields.dlookup key).or (fields.dlookup key) := by
  have hkinsert : ∀ (l : List ((_ : String) × Value)) (k : String) (v : Value),
      (l.kinsert k v).dlookup key = if key = k then some v else l.dlookup key := by
    intro l k v
    by_cases h : key = k
    · subst h
      simp
    · simp [h]
  simp only [PlaybackData.fields, mergeFields, Value.mergeInto, hkinsert, dlookup_cons,
    List.dlookup_nil]
  split_ifs with h₁ h₂ h₃ <;> simp_all

/-- The merged entry is exactly the new one when the old one had no other keys. -/
theorem mergeFields_exact_iff (fields : List ((_ : String) × Value)) (p : PlaybackData) :
    (∀ key, (mergeFields fields p.fields).dlookup key = p.fields.dlookup key) ↔
      ∀ key, key ∉ playbackKeys → fields.dlookup key = none := by
  constructor
  · intro h key hkey
    have hlookup := h key
    rwa [mergeFields_dlookup, fields_dlookup_eq_none.mpr hkey, Option.none_or] at hlookup
  · intro h key
    rw [mergeFields_dlookup]
    by_cases hkey : key ∈ playbackKeys
    · have hsome : p.fields.dlookup key ≠ none := fun hn => fields_dlookup_eq_none.mp hn hkey
      rcases Option.ne_none_iff_exists'.mp hsome with ⟨v, hv⟩
      rw [hv, Option.some_or]
    · rw [fields_dlookup_eq_none.mpr hkey, Option.none_or, h key hkey]

/-- The document after a publication. -/
theorem get_publish (db : Database) (ref : DocumentReference) (p : PlaybackData) :
    (publish db ref p).get ref =
      some (patchObject ((db.get ref).getD ∅) [⟨"stream", .map p.fields⟩]) := by
  simp [publish, Database.setDataMerge]

theorem streamMap_patchObject (obj : Document) (p : PlaybackData) :
    streamMap (patchObject obj [⟨"stream", .map p.fields⟩]) =
      some (mergeFields ((streamMap obj).getD []) p.fields) := by
  simp [streamMap, patchObject, PlaybackData.fields, Value.mergeInto]

/-- On a reply that describes a stream the entry is exactly that stream, the rest of the document is
as before and the broadcast is presented with its key; on any other reply nothing happens. -/
structure AllOrNothing (jsonObject : List UInt8 → Option Value) (ref : DocumentReference)
    (db : Database) (reply : Reply) (o : Outcome) : Prop where
  good : ∀ p, StreamReply jsonObject reply p →
    (∃ data fields, o.db.get ref = some data ∧ streamMap data = some fields ∧
      (∀ key, fields.dlookup key = p.fields.dlookup key) ∧
      ∀ field, field ≠ "stream" → data.lookup field = ((db.get ref).getD ∅).lookup field) ∧
    ∃ vc, o.presented = some vc ∧ vc.playbackStreamKey = some p.streamKey
  bad : (∀ p, ¬ StreamReply jsonObject reply p) → o.db.get ref = db.get ref ∧ o.presented = none

/-- The stream entry there was has no other keys than those `createStream` writes. -/
def OnlyPlaybackKeys (db : Database) (ref : DocumentReference) : Prop :=
  ∀ fields, streamMap ((db.get ref).getD ∅) = some fields →
    ∀ key, key ∉ playbackKeys → fields.dlookup key = none

/-- What `setupBroadcastVC` does once the wait is over, whatever the reply was. -/
theorem setupBroadcastVC_eq_some {host : Host} {username : String} {ref : DocumentReference}
    {db : Database} {reply : Reply} {o : Outcome} (hhost : host.username = some username)
    (href : hostDocument username = some ref)
    (h : setupBroadcastVC jsonObject (some host) db reply = some o) :
    ∃ vars, dataTaskCompletion jsonObject reply = .ended vars 1 ∧
      o = ⟨publish db ref vars.playback, some ⟨some vars.playback.streamKey, some host⟩⟩ := by
  have hsb : mainStoryboard.instantiates "MuxViewController" .muxViewController := by decide
  have htarget : createStreamTarget (some host) = some username := hhost
  cases hwait : groupWait (dataTaskCompletion jsonObject reply) with
  | none => simp [setupBroadcastVC, createStream, hwait] at h
  | some vars =>
    refine ⟨vars, groupWait_eq_some.mp hwait, ?_⟩
    simpa [setupBroadcastVC, createStream, hwait, htarget, href, hsb, eq_comm] using h

theorem streamReply_iff_bound {reply : Reply} {json : Value} {p : PlaybackData}
    (h : Answers jsonObject reply json) : StreamReply jsonObject reply p ↔ chain json = .bound p := by
  rw [chain_eq_bound]
  constructor
  · rintro ⟨json', idData, rest, ⟨data', statusCode', hreply', -, -, hjson'⟩, hdescribes, hid, hp⟩
    rcases h with ⟨data, statusCode, rfl, -, -, hjson⟩
    obtain rfl : data = data' := by simpa using congrArg Reply.data hreply'
    obtain rfl : json = json' := Option.some.inj (hjson.symm.trans hjson')
    exact ⟨idData, rest, hdescribes, hid, hp⟩
  · rintro ⟨idData, rest, hdescribes, hid, hp⟩
    exact ⟨json, idData, rest, h, hdescribes, hid, hp⟩

/-- **Going live.** Where `createStream` returns, going live is all-or-nothing exactly when the reply
describes a stream and the entry it replaces had no other keys. -/
theorem all_or_nothing_iff {host : Host} {username : String} {ref : DocumentReference}
    {db : Database} {reply : Reply} {o : Outcome} (hhost : host.username = some username)
    (href : hostDocument username = some ref)
    (h : setupBroadcastVC jsonObject (some host) db reply = some o) :
    AllOrNothing jsonObject ref db reply o ↔
      (∃ p, StreamReply jsonObject reply p) ∧ OnlyPlaybackKeys db ref := by
  rcases setupBroadcastVC_eq_some hhost href h with ⟨vars, hended, rfl⟩
  rcases dataTaskCompletion_eq_ended.mp hended with ⟨json, hanswers, hchain⟩
  have hreply : ∀ p, StreamReply jsonObject reply p ↔ chain json = .bound p := fun p =>
    streamReply_iff_bound hanswers
  have hget := get_publish db ref vars.playback
  have hstream := streamMap_patchObject ((db.get ref).getD ∅) vars.playback
  constructor
  · intro hall
    have hsome : ∃ p, StreamReply jsonObject reply p := by
      by_contra hnone
      simp only [not_exists] at hnone
      simpa using (hall.bad hnone).2
    rcases hsome with ⟨p, hp⟩
    rcases (hall.good p hp).1 with ⟨data, fields, hdata, hfields, hexact, -⟩
    have hbound := (hreply p).mp hp
    obtain rfl : vars = ⟨p, "success"⟩ := by simpa [hbound] using hchain
    obtain rfl := Option.some.inj (hget.symm.trans hdata)
    obtain rfl := Option.some.inj (hstream.symm.trans hfields)
    refine ⟨⟨p, hp⟩, fun fields hprior => ?_⟩
    rw [hprior] at hexact
    exact (mergeFields_exact_iff fields p).mp hexact
  · rintro ⟨⟨p, hp⟩, honly⟩
    refine ⟨fun q hq => ?_, fun hnone => absurd hp (hnone p)⟩
    have hbound := (hreply q).mp hq
    obtain rfl : vars = ⟨q, "success"⟩ := by simpa [hbound] using hchain
    have hother : ∀ key, key ∉ playbackKeys →
        ((streamMap ((db.get ref).getD ∅)).getD []).dlookup key = none := by
      intro key hkey
      cases hprior : streamMap ((db.get ref).getD ∅) with
      | none => rfl
      | some fields => exact honly fields hprior key hkey
    exact ⟨⟨_, _, hget, hstream, (mergeFields_exact_iff _ q).mpr hother,
      (patchObject_stream _ q).2⟩, _, rfl, rfl⟩

/-- Where `setupBroadcastVC` returns, the device goes live with the strings of `createStream`: its
write is the one applied here, and its screen starts the broadcast the presented controller does. -/
theorem setupBroadcastVC_goLive {d : Broadcast.Device} {reply : Reply} {o : Outcome}
    (hscreen : ∀ vc, d.screen ≠ .presented vc)
    (h : setupBroadcastVC jsonObject d.host d.settled reply = some o) :
    ∃ playback vc muxLive d', o.presented = some vc ∧ vc.viewDidLoad = some muxLive ∧
      Broadcast.step d (.goLive playback) = some d' ∧
      d'.screen = .presented { host := d.host, muxLive } ∧ d'.settled = o.db := by
  have hsb : mainStoryboard.instantiates "MuxViewController" .muxViewController := by decide
  have hstep : ∀ (playback : PlaybackData) (writes : List Broadcast.Write),
      Broadcast.createStream d.host playback = some writes →
      Broadcast.step d (.goLive playback) = some { d with
        writes := d.writes ++ writes
        screen := .presented
          { host := d.host, muxLive := Broadcast.viewDidLoad playback.streamKey } } := by
    intro playback writes hwrites
    cases hs : d.screen with
    | presented vc => exact absurd hs (hscreen vc)
    | home => simp [Broadcast.step, hs, hwrites]
    | dismissed => simp [Broadcast.step, hs, hwrites]
  cases hwait : groupWait (dataTaskCompletion jsonObject reply) with
  | none => simp [setupBroadcastVC, createStream, hwait] at h
  | some vars =>
    cases htarget : createStreamTarget d.host with
    | none =>
      obtain rfl : (⟨d.settled, some ⟨some vars.playback.streamKey, d.host⟩⟩ : Outcome) = o := by
        simpa [setupBroadcastVC, createStream, hwait, htarget, hsb] using h
      refine ⟨vars.playback, _, _, _, rfl, rfl, hstep vars.playback [] ?_, rfl, ?_⟩
      · simp [Broadcast.createStream, htarget]
      · simp [Broadcast.Device.settled]
    | some username =>
      cases href : hostDocument username with
      | none => simp [setupBroadcastVC, createStream, hwait, htarget, href] at h
      | some ref =>
        obtain rfl : (⟨publish d.settled ref vars.playback,
            some ⟨some vars.playback.streamKey, d.host⟩⟩ : Outcome) = o := by
          simpa [setupBroadcastVC, createStream, hwait, htarget, href, hsb] using h
        refine ⟨vars.playback, _, _, _, rfl, rfl,
          hstep vars.playback [.publish ref vars.playback] ?_, rfl, ?_⟩
        · simp [Broadcast.createStream, htarget, href]
        · simp [Broadcast.Device.settled, Broadcast.Write.apply]

/-! ## Replies for the concrete runs -/

/-- A 201 with an ASCII text as its body. -/
def createdReply (body : String) : Reply :=
  ⟨some (body.toList.map fun c => c.toNat.toUInt8), some (.http 201), none⟩

def createdBody : String :=
  "\x7b\"data\":\x7b\"stream_key\":\"key\"," ++
    "\"playback_ids\":[\x7b\"id\":\"id\",\"policy\":\"public\"\x7d]\x7d\x7d"

/-- What `createdBody` parses to. -/
def createdJSON : Value :=
  .map [⟨"data", .map [⟨"stream_key", .string "key"⟩,
    ⟨"playback_ids", .array [.map [⟨"id", .string "id"⟩, ⟨"policy", .string "public"⟩]]⟩]⟩]

def djHost : Host := { username := some "dj" }

theorem all_or_nothing_created :
    ∃ o, setupBroadcastVC (fun _ => some createdJSON) (some djHost) Registration.djStore
        (createdReply createdBody) = some o ∧
      AllOrNothing (fun _ => some createdJSON) Registration.djReference Registration.djStore
        (createdReply createdBody) o := by
  have href : hostDocument "dj" = some Registration.djReference := by decide
  refine ⟨_, rfl, (all_or_nothing_iff (show djHost.username = some "dj" from rfl) href rfl).mpr
    ⟨⟨⟨"id", "public", "key"⟩, ?_⟩, ?_⟩⟩
  · refine ⟨createdJSON, [⟨"id", .string "id"⟩, ⟨"policy", .string "public"⟩], [], ?_, ?_, rfl, rfl⟩
    · exact ⟨_, _, rfl, by decide, by decide, rfl⟩
    · exact ⟨_, _, rfl, rfl, rfl, rfl⟩
  · rintro fields hfields
    have hnone : streamMap ((Registration.djStore.get Registration.djReference).getD ∅) = none := rfl
    rw [hnone] at hfields
    cases hfields

/-- On an answer of the empty object the host goes live with empty strings. -/
theorem empty_answer_goes_live :
    ∃ o, setupBroadcastVC (fun _ => some (.map [])) (some djHost) Registration.djStore
        (createdReply "\x7b\x7d") = some o ∧
      ¬ AllOrNothing (fun _ => some (.map [])) Registration.djReference Registration.djStore
        (createdReply "\x7b\x7d") o := by
  refine ⟨_, rfl, fun hall => ?_⟩
  have hnone : ∀ p, ¬ StreamReply (fun _ => some (.map [])) (createdReply "\x7b\x7d") p := by
    rintro p ⟨json, idData, rest, ⟨data, statusCode, -, -, -, hjson⟩, ⟨dictionary, _, rfl, hdata, -⟩, -⟩
    obtain rfl : [] = dictionary := by simpa using hjson
    cases hdata
  simpa using (hall.bad hnone).2

end WaxxyLive.GoLive
