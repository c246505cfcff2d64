import WaxxyLive.Lib.Registry
import WaxxyLive.Lib.Runs
import WaxxyLive.Clients

/-!
# The profile documents form a registry

`Refines` relates the documents of the database to the registry in which a
completed `setData` registers a profile, a completed merge attaches a stream
and a completed update detaches it. It holds after every run
(`refines_run`): no document disappears, each keeps the fields of the last
profile written to it, and its `stream` map is that of the last publication.
-/

namespace WaxxyLive.Clients

open Firestore CoreData Registration Streaming Login

abbrev ProfileDirectory := Registry.Directory DocumentReference Profile PlaybackData

/-- The registry events an action stands for. -/
def events : Action → List (Registry.Event DocumentReference Profile PlaybackData)
  | .setDataCompleted p ref => [.register ref p]
  | .mergeCompleted ref playback => [.attach ref playback]
  | .updateCompleted ref => [.detach ref]
  | _ => []

/-- The completed profile writes of a run, in order. -/
def registrations (t : List Action) : List (Registry.Write DocumentReference Profile) :=
  t.filterMap fun
    | .setDataCompleted p ref => some ⟨ref, p⟩
    | _ => none

theorem writes_events (t : List Action) :
    Registry.writes (t.flatMap events) = registrations t := by
  induction t with
  | nil => rfl
  | cons a t ih =>
    simp only [Registry.writes] at ih
    cases a <;> simp [events, Registry.writes, registrations, ih]

/-! ## What a document shows of its entry -/

/-- A `stream` field holding the map of a publication. -/
def ShowsStream (v : Value) (playback : PlaybackData) : Prop :=
  ∃ fields, v = .map fields ∧ ShowsPlayback fields playback

structure Shows (data : Document) (e : Registry.Entry Profile PlaybackData) : Prop where
  profile : ∀ field, field ≠ "stream" → data.lookup field = e.profile.docData.lookup field
  stream : Option.Rel ShowsStream (data.lookup "stream") e.attachment

theorem docData_stream (p : Profile) : p.docData.lookup "stream" = none := by
  obtain ⟨email, texts | ⟨username, genreTags⟩⟩ := p
  · simp [Profile.docData]
  · simp [Profile.docData, ListenerRegistrationViewController.docData]

theorem shows_docData (p : Profile) : Shows p.docData ⟨p, none⟩ where
  profile _ _ := rfl
  stream := by
    rw [docData_stream]
    exact .none

theorem Shows.publish {data : Document} {e : Registry.Entry Profile PlaybackData}
    (h : Shows data e) (playback : PlaybackData) :
    Shows (patchObject data [⟨"stream", .map playback.fields⟩])
      { e with attachment := some playback } := by
  obtain ⟨⟨fields, hs, hp⟩, hother⟩ := patchObject_stream data playback
  refine ⟨fun field hf => (hother field hf).trans (h.profile field hf), ?_⟩
  rw [hs]
  exact .some ⟨fields, rfl, hp⟩

theorem Shows.retract {data : Document} {e : Registry.Entry Profile PlaybackData}
    (h : Shows data e) : Shows (data.erase "stream") { e with attachment := none } := by
  refine ⟨fun field hf => ?_, ?_⟩
  · rw [AList.lookup_erase_ne hf]
    exact h.profile field hf
  · rw [AList.lookup_erase]
    exact .none

/-! ## The refinement -/

/-- A call a client can have sent: a profile goes to its own reference, and a
stream is merged only into a document that is there. -/
def CallOk (d : ProfileDirectory) : Call → Prop
  | .setData p ref => p.reference = some ref
  | .merge ref _ => (d ref).isSome
  | .createUser _ _ _ | .update _ => True

/-- A username a session publishes under names a document that is there. -/
def SessionOk (d : ProfileDirectory) (host : Option Host) : Prop :=
  ∀ ref, (createStreamTarget host).bind hostDocument = some ref → (d ref).isSome

structure Refines (w : World) (d : ProfileDirectory) : Prop where
  docs : ∀ ref, Option.Rel Shows (w.db.get ref) (d ref)
  placed : ∀ ref e, d ref = some e → e.profile.reference = some ref
  calls : ∀ call ∈ w.calls, CallOk d call
  sessions : ∀ host ∈ w.sessions, SessionOk d host

theorem refines_init : Refines {} fun _ => none where
  docs _ := .none
  placed := by simp
  calls := by simp
  sessions := by simp

variable {w w' : World} {d : ProfileDirectory}

theorem CallOk.exec {call : Call} (h : CallOk d call)
    (e : Registry.Event DocumentReference Profile PlaybackData) :
    CallOk (Registry.exec d e) call := by
  cases call with
  | merge ref playback => exact Registry.exec_isSome h
  | createUser | setData | update => exact h

theorem SessionOk.exec {host : Option Host} (h : SessionOk d host)
    (e : Registry.Event DocumentReference Profile PlaybackData) :
    SessionOk (Registry.exec d e) host :=
  fun ref hr => Registry.exec_isSome (h ref hr)

/-- Taking a call off the outstanding ones keeps the relation. -/
theorem Refines.answered (h : Refines w d) (call : Call) :
    Refines { w with calls := w.calls.erase call } d where
  docs := h.docs
  placed := h.placed
  calls c hc := h.calls c (Multiset.mem_of_mem_erase hc)
  sessions := h.sessions

theorem Refines.issue {call : Call} (h : Refines w d) (hc : CallOk d call) :
    Refines (w.issue call) d where
  docs := h.docs
  placed := h.placed
  calls := by
    intro c hc'
    rcases Multiset.mem_cons.mp hc' with rfl | hc'
    · exact hc
    · exact h.calls c hc'
  sessions := h.sessions

theorem Refines.open {host : Option Host} (h : Refines w d) (hs : SessionOk d host) :
    Refines { w with sessions := host :: w.sessions } d where
  docs := h.docs
  placed := h.placed
  calls := h.calls
  sessions := by
    intro host' hh
    rcases List.mem_cons.mp hh with rfl | hh
    · exact hs
    · exact h.sessions host' hh

/-- One document written over, the registry following with one event. -/
theorem Refines.write (e : Registry.Event DocumentReference Profile PlaybackData)
    {ref : DocumentReference} {data : Document} {entry : Registry.Entry Profile PlaybackData}
    (h : Refines w d) (hd : Registry.exec d e = Function.update d ref (some entry))
    (hs : Shows data entry) (hp : entry.profile.reference = some ref) :
    Refines { w with db := w.db.setData ref data } (Registry.exec d e) where
  docs r := by
    rw [hd]
    by_cases hr : r = ref
    · subst hr
      simpa using Option.Rel.some hs
    · simpa [hr] using h.docs r
  placed r e' he := by
    rw [hd] at he
    by_cases hr : r = ref
    · subst hr
      obtain rfl : entry = e' := by simpa using he
      exact hp
    · exact h.placed r e' (by simpa [hr] using he)
  calls c hc := (h.calls c hc).exec e
  sessions host hh := (h.sessions host hh).exec e

theorem Refines.entry_of_doc {ref : DocumentReference} {data : Document} (h : Refines w d)
    (hd : w.db.get ref = some data) : ∃ e, d ref = some e ∧ Shows data e := by
  have hrel := h.docs ref
  rw [hd] at hrel
  cases he : d ref with
  | none => simp [he] at hrel
  | some e => exact ⟨e, rfl, by simpa [he] using hrel⟩

theorem Refines.doc_of_entry {ref : DocumentReference}
    {e : Registry.Entry Profile PlaybackData} (h : Refines w d) (he : d ref = some e) :
    ∃ data, w.db.get ref = some data ∧ Shows data e := by
  have hrel := h.docs ref
  rw [he] at hrel
  cases hd : w.db.get ref with
  | none => simp [hd] at hrel
  | some data => exact ⟨data, rfl, by simpa [hd] using hrel⟩

/-! ## The hosts collection -/

/-- A profile placed below `hosts` is a host's. -/
theorem host_of_reference {p : Profile} {ref : DocumentReference} (h : p.reference = some ref)
    (hhosts : ref.parent = ["hosts"]) : ∃ texts, p.entry = .host texts := by
  obtain ⟨email, texts | ⟨username, genreTags⟩⟩ := p
  · exact ⟨texts, rfl⟩
  · have hhead : ref.parent.head? = some "listeners" := document_parent_head h
    simp [hhosts] at hhead

/-- A document of `hosts` with the entry it shows: the profile of a host, placed there. -/
theorem Refines.hosts_entry {id : String} {data : Document} (h : Refines w d)
    (hd : (w.db.collection ["hosts"]).lookup id = some data) :
    ∃ e texts, d ⟨["hosts"], id⟩ = some e ∧ Shows data e ∧ e.profile.entry = .host texts ∧
      hostDocument texts.username = some ⟨["hosts"], id⟩ := by
  obtain ⟨e, he, hs⟩ := h.entry_of_doc (show w.db.get ⟨["hosts"], id⟩ = some data from hd)
  have href := h.placed _ _ he
  obtain ⟨texts, ht⟩ := host_of_reference href rfl
  refine ⟨e, texts, he, hs, ht, ?_⟩
  rw [Profile.reference, ht] at href
  exact href

theorem fillHost_username {data : Document} {username : String}
    (h : (fillHost data {}).username = some username) :
    data.string? "username" = some username := by
  unfold fillHost at h
  split at h
  case h_1 info hi =>
    obtain rfl : info.username = username := by simpa [Host.fill] using h
    exact (hostInfo?_eq_some_iff.mp hi).1
  case h_2 => simp at h

theorem mem_hosts_of_query {p : Press} {doc : (_ : String) × Document} (hp : p.isHost)
    (h : (query w.db p).head? = some doc) :
    (w.db.collection ["hosts"]).lookup doc.1 = some doc.2 := by
  have hmem : doc ∈ query w.db p := List.mem_of_mem_head? h
  rw [query, queriedCollection, if_pos hp] at hmem
  exact (Collection.mem_whereField.mp hmem).1

/-- The username a login reads names the document it read it from. -/
theorem Refines.login {p : Press} {doc : (_ : String) × Document} (h : Refines w d)
    (hp : p.isHost) (hq : (query w.db p).head? = some doc) :
    SessionOk d (some (fillHost doc.2 {})) := by
  intro ref href
  obtain ⟨e, texts, hd, hs, ht, hu⟩ := h.hosts_entry (mem_hosts_of_query hp hq)
  obtain ⟨username, hname, href⟩ := Option.bind_eq_some_iff.mp href
  have hdoc := fillHost_username hname
  rw [Document.string?, hs.profile _ (by decide), Profile.docData, ht] at hdoc
  obtain rfl : texts.username = username := by simpa using hdoc
  rw [hu] at href
  obtain rfl := Option.some.inj href
  simp [hd]

/-! ## Every step and every run -/

theorem Refines.createUserCompletion {p : Profile} (h : Refines w d) :
    Refines (w.createUserCompletion p) d := by
  unfold World.createUserCompletion
  split
  case h_1 ref href => exact h.issue href
  case h_2 => exact h

theorem Refines.createStream {host : Option Host} (h : Refines w d) (hh : host ∈ w.sessions)
    (playback : PlaybackData) : Refines (w.createStream host playback) d := by
  unfold World.createStream
  split
  case h_1 ref href => exact h.issue (h.sessions host hh ref href)
  case h_2 => exact h

theorem Refines.handleStopButton (h : Refines w d) (host : Option Host) :
    Refines (w.handleStopButton host) d := by
  unfold World.handleStopButton
  split
  case h_1 ref href => exact h.issue trivial
  case h_2 => exact h

theorem Refines.merge {ref : DocumentReference} {playback : PlaybackData} (h : Refines w d)
    (hd : (d ref).isSome) :
    Refines { w with db := publish w.db ref playback } (Registry.exec d (.attach ref playback)) := by
  obtain ⟨e, he⟩ := Option.isSome_iff_exists.mp hd
  obtain ⟨data, hdata, hshows⟩ := h.doc_of_entry he
  have hpub : publish w.db ref playback =
      w.db.setData ref (patchObject data [⟨"stream", .map playback.fields⟩]) := by
    simp [publish, Database.setDataMerge, hdata]
  rw [hpub]
  exact h.write (.attach ref playback) (by simp [Registry.exec, he]) (hshows.publish playback)
    (h.placed ref e he)

theorem refines_step {a : Action} (h : Refines w d) (hs : step w a = some w') :
    Refines w' ((events a).foldl Registry.exec d) := by
  cases a with
  | finishTapped role email password =>
    obtain rfl := step_finishTapped.mp hs
    exact h.issue trivial
  | createUserCompleted password p =>
    obtain ⟨-, -, rfl⟩ := step_createUserCompleted.mp hs
    have h₁ := h.answered (.createUser p.entry.role p.email password)
    exact Refines.createUserCompletion ⟨h₁.docs, h₁.placed, h₁.calls, h₁.sessions⟩
  | setDataCompleted p ref =>
    obtain ⟨hc, rfl⟩ := step_setDataCompleted.mp hs
    exact (h.answered _).write (.register ref p) rfl (shows_docData p) (h.calls _ hc)
  | mergeCompleted ref playback =>
    obtain ⟨hc, rfl⟩ := step_mergeCompleted.mp hs
    exact (h.answered _).merge (h.calls _ hc)
  | updateCompleted ref =>
    obtain ⟨-, data, hdata, rfl⟩ := step_updateCompleted.mp hs
    obtain ⟨e, he, hshows⟩ := h.entry_of_doc hdata
    exact (h.answered _).write (.detach ref) (by simp [Registry.exec, he]) hshows.retract
      (h.placed ref e he)
  | failed call =>
    obtain ⟨-, rfl⟩ := step_failed.mp hs
    exact h.answered call
  | opened host =>
    obtain ⟨hname, rfl⟩ := step_opened.mp hs
    exact h.open (by simp [SessionOk, createStreamTarget, hname])
  | loggedIn p =>
    obtain ⟨⟨hp, -⟩, doc, hq, rfl⟩ := step_loggedIn.mp hs
    exact h.open (h.login hp hq)
  | streamCreated session playback =>
    obtain ⟨host, hh, rfl⟩ := step_streamCreated.mp hs
    exact h.createStream (List.mem_of_getElem? hh) playback
  | stopPressed session =>
    obtain ⟨host, -, rfl⟩ := step_stopPressed.mp hs
    exact h.handleStopButton host

/-- After every run the database shows the registry of the run's events. -/
theorem refines_run {t : List Action} (h : Runs.run step {} t = some w) :
    Refines w (Registry.directory (t.flatMap events)) :=
  Runs.simulation (fun _ _ _ _ => refines_step) refines_init h

end WaxxyLive.Clients
