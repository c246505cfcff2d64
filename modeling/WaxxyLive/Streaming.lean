import WaxxyLive.CoreData

/-!
# Publishing and retracting the stream entry

The two writes a host's device makes to its document while it streams:
`HostStreamingViewController.createStream` merges the `stream` map, and
`MuxViewController.handleStopButton` deletes the field.
-/

namespace WaxxyLive.Streaming

open Firestore CoreData

/-- The strings `createStream` takes from the reply of the Mux API. -/
structure PlaybackData where
  playbackId : String
  playbackPolicy : String
  streamKey : String
  deriving DecidableEq, Repr

def PlaybackData.fields (p : PlaybackData) : List ((_ : String) × Value) :=
  [⟨"playbackId", .string p.playbackId⟩,
    ⟨"playbackPolicy", .string p.playbackPolicy⟩,
    ⟨"streamKey", .string p.streamKey⟩]

/-- `setData(["stream": playbackData], merge: true)` -/
def publish (db : Database) (ref : DocumentReference) (p : PlaybackData) : Database :=
  db.setDataMerge ref [⟨"stream", .map p.fields⟩]

/-- `updateData(["stream": FieldValue.delete()])` -/
def retract (db : Database) (ref : DocumentReference) : Option Database :=
  db.updateDataDelete ref "stream"

/-- The document both writes address: `hosts/<username>`. -/
def hostDocument (username : String) : Option DocumentReference := document ["hosts"] username

/-- The username `createStream` publishes under; without one it only prints. -/
def createStreamTarget (host : Option Host) : Option String := host.bind Host.username

/-- The username `handleStopButton` retracts under, `some none` when no host was
passed in; `none` is the trap of `host!.username!`. -/
def stopTarget : Option Host → Option (Option String)
  | none => some none
  | some host => host.username.map some

/-- The stream map of a document shows the playback data `p`. -/
structure ShowsPlayback (fields : List ((_ : String) × Value)) (p : PlaybackData) : Prop where
  playbackId : fields.dlookup "playbackId" = some (.string p.playbackId)
  playbackPolicy : fields.dlookup "playbackPolicy" = some (.string p.playbackPolicy)
  streamKey : fields.dlookup "streamKey" = some (.string p.streamKey)

theorem mergeFields_shows (fields : List ((_ : String) × Value)) (p : PlaybackData) :
    ShowsPlayback (mergeFields fields p.fields) p := by
  constructor <;> simp [PlaybackData.fields, mergeFields, Value.mergeInto]

/-- A published document has the stream map of the reply, and its other fields as before. -/
theorem patchObject_stream (obj : Document) (p : PlaybackData) :
    (∃ fields, (patchObject obj [⟨"stream", .map p.fields⟩]).lookup "stream" = some (.map fields) ∧
      ShowsPlayback fields p) ∧
    ∀ field, field ≠ "stream" →
      (patchObject obj [⟨"stream", .map p.fields⟩]).lookup field = obj.lookup field := by
  constructor
  · refine ⟨mergeFields (((obj.lookup "stream").bind Value.asMap).getD []) p.fields, ?_,
      mergeFields_shows _ _⟩
    simp [patchObject, PlaybackData.fields, Value.mergeInto]
  · intro field hf
    simp [patchObject, AList.lookup_insert_ne hf]

end WaxxyLive.Streaming
