import WaxxyLive.Login

/-!
# The host browser and the host profile screen

`HostBrowseViewController` keeps the documents its queries delivered, shows
one row for each and opens `HostProfileViewController` on the selected one,
which plays the stream of the host it was handed.
-/

namespace WaxxyLive.Browse

open Firestore CoreData TabBars Login

/-- `loadUpHosts`' completion; `isEqual` is `NSDictionary` equality. -/
def loadUpHosts (isEqual : Document → Document → Bool) (hostArr : List Document) :
    QueryResult → List Document
  | .error => hostArr
  | .documents docs =>
    docs.foldl (fun hostArr dict =>
      if hostArr.any (isEqual · dict) then hostArr else hostArr ++ [dict]) hostArr

structure Cell where
  textLabel : String
  detailTextLabel : String
  deriving DecidableEq, Repr

/-- `tableView(_:cellForRowAt:)`; `none` is the trap of a row out of range or of a forced cast. -/
def cellForRowAt (hostArr : List Document) (row : Nat) : Option Cell := do
  let data ← hostArr[row]?
  let textLabel ← data.string? "username"
  let detailTextLabel ← data.string? "region"
  return { textLabel, detailTextLabel }

/-- What selecting a row does: the profile screen is presented with a new `Host`,
or nothing happens. -/
inductive Selection where
  | trapped
  | ignored
  | presented (coreData : Container) (host : Host)

/-- `tableView(_:didSelectRowAt:)` -/
def didSelectRowAt (sb : Storyboard) (hostArr : List Document) (row : Nat) (c : Container) :
    Selection :=
  if sb.instantiates "HostProfileViewController" .hostProfileViewController then
    if hostArr.length ≠ 0 then
      match hostArr[row]? with
      | none => .trapped
      | some hostInfo =>
        match hostInfo? hostInfo with
        | some info =>
          .presented (c.insertHost.1.modifyHost c.insertHost.2 (·.fill info)) (Host.fill {} info)
        | none => .ignored
    else .ignored
  else .trapped

/-- What `presentDJStream` shows. -/
inductive Screen where
  | trapped
  | streamInfoNotPresent
  | playing (videoURL : String)
  deriving DecidableEq, Repr

def videoURL (playbackId : String) : String :=
  "https://stream.mux.com/" ++ playbackId ++ ".m3u8"

/-- `HostProfileViewController.presentDJStream`; `isURL` says which texts `URL(string:)` takes. -/
def presentDJStream (isURL : String → Bool) (host : Option Host) : Screen :=
  match host.bind Host.streamInfo with
  | none => .streamInfoNotPresent
  | some streamInfo =>
    match (streamInfo.dlookup "playbackId").bind Value.asString with
    | none => .trapped
    | some playbackId =>
      if isURL (videoURL playbackId) then .playing (videoURL playbackId) else .trapped

/-- The `stream` map of a document. -/
def streamMap (data : Document) : Option (List ((_ : String) × Value)) :=
  (data.lookup "stream").bind Value.asMap

/-- The host handed to the profile screen plays the stream the document publishes, if any. -/
structure TunesIn (isURL : String → Bool) (data : Document) (host : Host) : Prop where
  streamInfo : host.streamInfo.isSome ↔ (streamMap data).isSome
  playbackId : ∀ info fields, host.streamInfo = some info → streamMap data = some fields →
    info.dlookup "playbackId" = fields.dlookup "playbackId"
  playing : ∀ url, presentDJStream isURL (some host) = .playing url ↔
    ∃ fields playbackId, streamMap data = some fields ∧
      fields.dlookup "playbackId" = some (.string playbackId) ∧ url = videoURL playbackId

/-- A host filled from a document's texts has no stream to play. -/
theorem tunesIn_fill_iff (isURL : String → Bool) (data : Document) (info : HostInfo) :
    TunesIn isURL data (Host.fill {} info) ↔ streamMap data = none := by
  constructor
  · intro h
    simpa [Host.fill] using h.streamInfo
  · intro h
    constructor <;> simp [Host.fill, presentDJStream, h]

/-! ## Rows that decode -/

theorem mem_loadUpHosts {isEqual : Document → Document → Bool} {r : QueryResult}
    {hostArr : List Document} {data : Document} (h : data ∈ loadUpHosts isEqual hostArr r) :
    data ∈ hostArr ∨ ∃ docs, r = .documents docs ∧ data ∈ docs := by
  cases r with
  | error => exact .inl h
  | documents docs =>
    suffices h' : data ∈ hostArr ∨ data ∈ docs from h'.imp_right fun hd => ⟨docs, rfl, hd⟩
    rw [loadUpHosts] at h
    induction docs generalizing hostArr with
    | nil => exact .inl h
    | cons dict docs ih =>
      rw [List.foldl_cons] at h
      rcases ih h with h | h
      · split at h
        · exact .inl h
        · simpa [or_assoc] using (List.mem_append.mp h).imp_right
            fun hd => Or.inl (List.mem_singleton.mp hd)
      · exact .inr (List.mem_cons_of_mem dict h)

/-- A row whose document decodes shows a cell and opens the profile screen. -/
theorem row_of_decodes {hostArr : List Document} {row : Nat} {data : Document}
    (hrow : hostArr[row]? = some data) (hd : (hostInfo? data).isSome) (c : Container) :
    cellForRowAt hostArr row ≠ none ∧
      ∃ c' info, hostInfo? data = some info ∧
        didSelectRowAt mainStoryboard hostArr row c = .presented c' (Host.fill {} info) := by
  obtain ⟨info, hi⟩ := Option.isSome_iff_exists.mp hd
  obtain ⟨hu, hr, -⟩ := hostInfo?_eq_some_iff.mp hi
  have hlen : hostArr.length ≠ 0 := by
    rintro h0
    simp [List.length_eq_zero_iff.mp h0] at hrow
  refine ⟨by simp [cellForRowAt, hrow, hu, hr],
    c.insertHost.1.modifyHost c.insertHost.2 (·.fill info), info, hi, ?_⟩
  have hsb : mainStoryboard.instantiates "HostProfileViewController" .hostProfileViewController :=
    by decide
  simp [didSelectRowAt, hsb, hlen, hrow, hi]

end WaxxyLive.Browse
