import WaxxyLive.Emails
import WaxxyLive.Browse

/-!
# The hosts collection after any run

`hosts_doc` ties a document of `hosts` to the last registration written to it.
From it follow what the browser and the login query find there, which
registrations survive and which hosts can be tuned in to.
-/

namespace WaxxyLive.Clients

open Firestore CoreData Registration Streaming TabBars Login Browse

/-- What the decoders read off the document of a host. -/
def hostInfo (email : String) (texts : HostTexts) : HostInfo :=
  ⟨texts.username, texts.region, texts.topGenres, texts.hostType, email⟩

theorem Shows.hostInfo? {data : Document} {e : Registry.Entry Profile PlaybackData}
    {texts : HostTexts} (h : Shows data e) (ht : e.profile.entry = .host texts) :
    hostInfo? data = some (hostInfo e.profile.email texts) := by
  have hfield : ∀ field, field ≠ "stream" → data.lookup field =
      (HostRegistrationViewController.docData e.profile.email texts).lookup field := by
    intro field hf
    rw [h.profile field hf, Profile.docData, ht]
  rw [hostInfo?_eq_some_iff]
  simp [Document.string?, hfield, hostInfo]

variable {t : List Action} {w : World}

/-- A document of `hosts` decodes to the texts of the last registration written to it. -/
theorem hosts_doc (h : Runs.run step {} t = some w) {id : String} {data : Document}
    (hd : (w.db.collection ["hosts"]).lookup id = some data) :
    ∃ email texts,
      WriteLog.lastWrite Registry.Write.key (registrations t) ⟨["hosts"], id⟩ =
        some ⟨⟨["hosts"], id⟩, ⟨email, .host texts⟩⟩ ∧
      hostDocument texts.username = some ⟨["hosts"], id⟩ ∧
      hostInfo? data = some (hostInfo email texts) := by
  obtain ⟨e, texts, he, hs, ht, hu⟩ := (refines_run h).hosts_entry hd
  refine ⟨e.profile.email, texts, ?_, hu, hs.hostInfo? ht⟩
  rw [← writes_events, ← Registry.directory_profile, he, ← ht]
  rfl

/-- The document of the last registration below `hosts` is there. -/
theorem hosts_doc_of_registration (h : Runs.run step {} t = some w)
    {r : Registry.Write DocumentReference Profile} {ref : DocumentReference} {texts : HostTexts}
    (hr : WriteLog.lastWrite Registry.Write.key (registrations t) ref = some r)
    (ht : r.profile.entry = .host texts) :
    ∃ data, w.db.get ref = some data ∧ hostInfo? data = some (hostInfo r.profile.email texts) := by
  rw [← writes_events, ← Registry.directory_profile] at hr
  obtain ⟨e, he, rfl⟩ := Option.map_eq_some_iff.mp hr
  obtain ⟨data, hdata, hs⟩ := (refines_run h).doc_of_entry he
  exact ⟨data, hdata, hs.hostInfo? ht⟩

/-! ## A host for the concrete runs -/

/-- A registration all of whose calls succeed. -/
def register (password : String) (p : Profile) (ref : DocumentReference) : List Action :=
  [.finishTapped p.entry.role p.email password, .createUserCompleted password p,
    .setDataCompleted p ref]

def djPlayback : PlaybackData := ⟨"id", "public", "key"⟩

/-- `djProfile` registers, logs in and goes live. -/
def djRun : List Action :=
  register "secret" djProfile djReference ++
    [.loggedIn ⟨1, "dj@waxxy.live", "secret"⟩, .streamCreated 0 djPlayback,
      .mergeCompleted djReference djPlayback]

/-- The profile document of `djProfile` with its stream. -/
def djDocument : Document :=
  patchObject djProfile.docData [⟨"stream", .map djPlayback.fields⟩]

def djWorld : World where
  accounts := (∅ : Accounts).insert "dj@waxxy.live" "secret"
  db := djStore.setData djReference djDocument
  sessions := [some (fillHost djProfile.docData {})]

theorem run_djRun : Runs.run step {} djRun = some djWorld := rfl

theorem lookup_djWorld : (djWorld.db.collection ["hosts"]).lookup "dj" = some djDocument := rfl

/-! ## The browser -/

/-- Every registered host's username is the id of the document its path addresses. -/
def UsernamesAreIds (t : List Action) : Prop :=
  ∀ r ∈ registrations t, ∀ texts, r.profile.entry = .host texts →
    hostDocument texts.username = some ⟨["hosts"], texts.username⟩

/-- What `getDocuments` on `hosts` delivers. -/
def snapshot (w : World) : List Document := (w.db.collection ["hosts"]).entries.map Sigma.snd

/-- The results the browser was delivered are errors or snapshots taken in the course of `t`. -/
def Delivered (t : List Action) (results : List QueryResult) : Prop :=
  ∀ docs, .documents docs ∈ results →
    ∃ u w, u <+: t ∧ Runs.run step {} u = some w ∧ docs = snapshot w

/-- The rows after the results. -/
def rows (isEqual : Document → Document → Bool) (results : List QueryResult) : List Document :=
  results.foldl (loadUpHosts isEqual) []

theorem hostInfo?_of_mem_rows {isEqual : Document → Document → Bool} {results : List QueryResult}
    (hdel : Delivered t results) {data : Document} (hd : data ∈ rows isEqual results) :
    (hostInfo? data).isSome := by
  induction results using List.reverseRecOn with
  | nil => simp [rows] at hd
  | append_singleton results r ih =>
    have hprev : Delivered t results := fun docs hdocs => hdel docs (by simp [hdocs])
    rw [rows, List.foldl_append] at hd
    rcases mem_loadUpHosts hd with hrow | ⟨docs, rfl, hdoc⟩
    · exact ih hprev hrow
    · obtain ⟨u, w, -, hu, rfl⟩ := hdel docs (by simp)
      obtain ⟨⟨id, data⟩, hmem, rfl⟩ := List.mem_map.mp hdoc
      obtain ⟨email, texts, -, -, hinfo⟩ := hosts_doc hu (AList.mem_lookup_iff.mpr hmem)
      simp [hinfo]

theorem mergeCompleted_isSome {w' : World} {ref : DocumentReference} {playback : PlaybackData}
    (h : Runs.run step {} t = some w) (hs : step w (.mergeCompleted ref playback) = some w')
    (r : DocumentReference) : (w'.db.get r).isSome = (w.db.get r).isSome := by
  obtain ⟨hc, rfl⟩ := step_mergeCompleted.mp hs
  obtain ⟨e, he⟩ := Option.isSome_iff_exists.mp ((refines_run h).calls _ hc)
  obtain ⟨data, hdata, -⟩ := (refines_run h).doc_of_entry he
  by_cases hr : r = ref
  · subst hr
    simp [publish, Database.setDataMerge, hdata]
  · simp [publish, Database.setDataMerge, hr]

/-- What the collection and the browser over it look like after the run `t`. -/
structure HostsWellFormed (t : List Action) (w : World) : Prop where
  id : ∀ id data, (w.db.collection ["hosts"]).lookup id = some data →
    data.string? "username" = some id
  fields : ∀ id data, (w.db.collection ["hosts"]).lookup id = some data → (hostInfo? data).isSome
  merge : ∀ ref playback w', step w (.mergeCompleted ref playback) = some w' →
    ∀ r, (w'.db.get r).isSome = (w.db.get r).isSome
  cell : ∀ isEqual results, Delivered t results → ∀ row < (rows isEqual results).length,
    cellForRowAt (rows isEqual results) row ≠ none
  select : ∀ isEqual results, Delivered t results → ∀ row < (rows isEqual results).length, ∀ c,
    ∃ c' host, didSelectRowAt mainStoryboard (rows isEqual results) row c = .presented c' host

/-- **Well-formed hosts.** Where usernames are document ids, every document of `hosts` has its
username as its id and every field the readers cast, no merge creates a document, and the
browser shows every row and opens it. -/
theorem hosts_wellFormed (h : Runs.run step {} t = some w) (hids : UsernamesAreIds t) :
    HostsWellFormed t w where
  id id data hd := by
    obtain ⟨email, texts, hlast, hu, hinfo⟩ := hosts_doc h hd
    have hid := hids _ (WriteLog.lastWrite_mem hlast).1 texts rfl
    obtain rfl : id = texts.username := by
      rw [hu] at hid
      simpa using hid
    exact (hostInfo?_eq_some_iff.mp hinfo).1
  fields id data hd := by
    obtain ⟨email, texts, -, -, hinfo⟩ := hosts_doc h hd
    simp [hinfo]
  merge _ _ _ hs := mergeCompleted_isSome h hs
  cell isEqual results hdel row hrow :=
    (row_of_decodes (List.getElem?_eq_getElem hrow)
      (hostInfo?_of_mem_rows hdel (List.getElem_mem hrow)) {}).1
  select isEqual results hdel row hrow c := by
    obtain ⟨c', info, -, hsel⟩ := (row_of_decodes (List.getElem?_eq_getElem hrow)
      (hostInfo?_of_mem_rows hdel (List.getElem_mem hrow)) c).2
    exact ⟨c', _, hsel⟩

theorem hosts_wellFormed_djRun : HostsWellFormed djRun djWorld := by
  refine hosts_wellFormed run_djRun fun r hr texts ht => ?_
  obtain rfl : r = ⟨djReference, djProfile⟩ := by
    simpa [djRun, register, registrations] using hr
  obtain rfl : djTexts = texts := Registration.Entry.host.inj ht
  decide

/-! ## The login query -/

/-- The document is the only one its email finds, and a `Host` filled from it has the texts of
the registration that wrote it. -/
def FoundByLogin (t : List Action) (w : World) (id : String) (data : Document) : Prop :=
  ∃ email texts,
    WriteLog.lastWrite Registry.Write.key (registrations t) ⟨["hosts"], id⟩ =
      some ⟨⟨["hosts"], id⟩, ⟨email, .host texts⟩⟩ ∧
    data.string? "email" = some email ∧
    ∀ p : Press, p.isHost → p.emailText = email →
      query w.db p = [⟨id, data⟩] ∧
      ∀ host : Host,
        (fillHost data host).username = some texts.username ∧
        (fillHost data host).region = some texts.region ∧
        (fillHost data host).hostType = some texts.hostType ∧
        (fillHost data host).email = some email ∧
        ∃ genres, (fillHost data host).topGenres = some genres ∧
          ",".intercalate genres = texts.topGenres

/-- **Login finds the profile.** After any run, for every document of `hosts`. -/
theorem login_finds_profile (h : Runs.run step {} t = some w) :
    ∀ id data, (w.db.collection ["hosts"]).lookup id = some data → FoundByLogin t w id data := by
  intro id data hd
  obtain ⟨email, texts, hlast, -, hinfo⟩ := hosts_doc h hd
  have hemail : data.string? "email" = some email := (hostInfo?_eq_some_iff.mp hinfo).2.2.2.2
  refine ⟨email, texts, hlast, hemail, fun p hp he => ⟨?_, fun host => ?_⟩⟩
  · rw [query, queriedCollection, if_pos hp, he]
    refine Collection.whereField_eq_singleton hd hemail fun id' data' hd' hemail' => ?_
    -- both documents come from the one registration that carries the email
    obtain ⟨email', texts', hlast', -, hinfo'⟩ := hosts_doc h hd'
    obtain rfl : email' = email := by
      have he' := (hostInfo?_eq_some_iff.mp hinfo').2.2.2.2
      rw [hemail'] at he'
      exact (Option.some.inj he').symm
    have hsame := registrations_email_inj h (WriteLog.lastWrite_mem hlast').1
      (WriteLog.lastWrite_mem hlast).1 rfl
    simpa using congrArg Registry.Write.key hsame
  · have hgenres := Separated.intercalate_components ',' texts.topGenres
    simpa [fillHost, hinfo, Host.fill, hostInfo] using hgenres

theorem login_finds_profile_djRun : FoundByLogin djRun djWorld "dj" djDocument :=
  login_finds_profile run_djRun "dj" djDocument lookup_djWorld

/-! ## Registrations that survive -/

/-- The profile a host registered with is in `hosts`. -/
def Kept (w : World) (email : String) (texts : HostTexts) : Prop :=
  ∃ id data, (w.db.collection ["hosts"]).lookup id = some data ∧
    hostInfo? data = some (hostInfo email texts)

/-- The completed profile writes of hosts. -/
def hostRegistrations (t : List Action) : List (Registry.Write DocumentReference Profile) :=
  (registrations t).filter fun r => r.profile.entry.role = .host

theorem role_host {entry : Registration.Entry} :
    entry.role = .host ↔ ∃ texts, entry = .host texts := by
  cases entry <;> simp [Entry.role]

/-- Every profile was written to its own reference. -/
theorem registrations_placed (h : Runs.run step {} t = some w) :
    ∀ r ∈ registrations t, r.profile.reference = some r.key := by
  refine Runs.run_induction (P := fun t _ => ∀ r ∈ registrations t,
    r.profile.reference = some r.key) (by simp [registrations]) ?_ h
  intro t w a w' ht ih hs r hr
  rw [registrations_concat, List.mem_append] at hr
  rcases hr with hr | hr
  · exact ih r hr
  · cases a with
    | setDataCompleted p ref =>
      obtain ⟨hc, -⟩ := step_setDataCompleted.mp hs
      obtain rfl : r = ⟨ref, p⟩ := by simpa [registrations] using hr
      exact (refines_run ht).calls _ hc
    | _ => simp [registrations] at hr

/-- A profile is in `hosts` exactly when it was written there and not written over. -/
theorem kept_iff (h : Runs.run step {} t = some w)
    {r : Registry.Write DocumentReference Profile} (hr : r ∈ registrations t) {texts : HostTexts}
    (ht : r.profile.entry = .host texts) :
    Kept w r.profile.email texts ↔
      r.key.parent = ["hosts"] ∧
        WriteLog.lastWrite Registry.Write.key (registrations t) r.key = some r := by
  constructor
  · rintro ⟨id, data, hd, hinfo⟩
    obtain ⟨email, texts', hlast, -, hinfo'⟩ := hosts_doc h hd
    have hemail : r.profile.email = email := by
      rw [hinfo] at hinfo'
      exact congrArg HostInfo.email (Option.some.inj hinfo')
    obtain rfl := registrations_email_inj h hr (WriteLog.lastWrite_mem hlast).1 hemail
    exact ⟨rfl, hlast⟩
  · rintro ⟨hp, hlast⟩
    obtain ⟨data, hdata, hinfo⟩ := hosts_doc_of_registration h hlast ht
    refine ⟨r.key.id, data, ?_, hinfo⟩
    rwa [Database.get, hp] at hdata

/-- After the run every host whose profile write completed still has its profile in `hosts`. -/
def AllKept (t : List Action) (w : World) : Prop :=
  ∀ r ∈ registrations t, ∀ texts, r.profile.entry = .host texts → Kept w r.profile.email texts

/-- No two hosts' usernames address one document, and each addresses one in `hosts` itself. -/
def SeparateDocuments (t : List Action) : Prop :=
  ((hostRegistrations t).map fun r => r.profile.reference).Nodup ∧
    ∀ r ∈ hostRegistrations t, ∃ id, r.profile.reference = some ⟨["hosts"], id⟩

theorem separateDocuments_iff (h : Runs.run step {} t = some w) :
    SeparateDocuments t ↔ ((hostRegistrations t).map Registry.Write.key).Nodup ∧
      ∀ r ∈ hostRegistrations t, r.key.parent = ["hosts"] := by
  have hplaced : ∀ r ∈ hostRegistrations t, r.profile.reference = some r.key :=
    fun r hr => registrations_placed h r (List.mem_of_mem_filter hr)
  refine and_congr ?_ (forall₂_congr fun r hr => ?_)
  · have hsome : (hostRegistrations t).map (fun r => r.profile.reference) =
        ((hostRegistrations t).map Registry.Write.key).map some := by
      rw [List.map_congr_left hplaced, List.map_map]
      rfl
    rw [hsome]
    exact List.nodup_map_iff (Option.some_injective _)
  · rw [hplaced r hr]
    constructor
    · rintro ⟨id, hid⟩
      exact congrArg DocumentReference.parent (Option.some.inj hid)
    · intro hp
      exact ⟨r.key.id, by rw [← hp]⟩

theorem allKept_iff_lastWrite (h : Runs.run step {} t = some w) :
    AllKept t w ↔ ∀ r ∈ hostRegistrations t, r.key.parent = ["hosts"] ∧
      WriteLog.lastWrite Registry.Write.key (registrations t) r.key = some r := by
  constructor
  · intro hall r hr
    obtain ⟨hr, hrole⟩ := List.mem_filter.mp hr
    obtain ⟨texts, ht⟩ := role_host.mp (of_decide_eq_true hrole)
    exact (kept_iff h hr ht).mp (hall r hr texts ht)
  · intro hall r hr texts ht
    refine (kept_iff h hr ht).mpr (hall r (List.mem_filter.mpr ⟨hr, ?_⟩))
    exact decide_eq_true (role_host.mpr ⟨texts, ht⟩)

/-- **Kept profiles.** All are kept exactly when the hosts' usernames address separate documents
of `hosts`. -/
theorem allKept_iff_separateDocuments (h : Runs.run step {} t = some w) :
    AllKept t w ↔ SeparateDocuments t := by
  have hnd : (hostRegistrations t).Nodup := (registrations_nodup h).filter _
  rw [allKept_iff_lastWrite h, separateDocuments_iff h, forall₂_and, and_comm,
    ← WriteLog.survives_iff_keys_nodup hnd]
  refine and_congr_left fun hparent => forall₂_congr fun r hr => ?_
  -- only hosts write to `hosts`, so the listeners' writes do not matter at this key
  rw [hostRegistrations, WriteLog.lastWrite_filter]
  intro r' hr' hkey
  have hplaced := registrations_placed h r' hr'
  obtain ⟨texts, ht⟩ := host_of_reference hplaced (hkey ▸ hparent r hr)
  exact decide_eq_true (role_host.mpr ⟨texts, ht⟩)

theorem allKept_djRun : AllKept djRun djWorld ↔ SeparateDocuments djRun :=
  allKept_iff_separateDocuments run_djRun

/-- A second host takes the first one's username, and the first one's profile is gone. -/
theorem username_taken_twice :
    ¬ ∀ (t : List Action) (w : World), Runs.run step {} t = some w → AllKept t w := by
  intro h
  let t := register "secret" djProfile djReference ++
    register "hidden" ⟨"second@waxxy.live", .host djTexts⟩ djReference
  obtain ⟨w, hw⟩ := Option.isSome_iff_exists.mp
    (show (Runs.run step {} t).isSome = true from by decide)
  have hfirst := (allKept_iff_lastWrite hw).mp (h t w hw) ⟨djReference, djProfile⟩ (by decide)
  exact absurd hfirst.2 (by decide)

/-! ## Tuning in -/

/-- A published `stream` field is a map. -/
theorem streamMap_eq_none_iff (h : Runs.run step {} t = some w) {id : String} {data : Document}
    (hd : (w.db.collection ["hosts"]).lookup id = some data) :
    streamMap data = none ↔ data.lookup "stream" = none := by
  obtain ⟨e, -, -, hs, -, -⟩ := (refines_run h).hosts_entry hd
  have hstream := hs.stream
  unfold streamMap
  cases hl : data.lookup "stream" with
  | none => simp
  | some v =>
    cases ha : e.attachment with
    | none => simp [hl, ha] at hstream
    | some playback =>
      rw [hl, ha, Option.rel_some_some] at hstream
      obtain ⟨fields, rfl, -⟩ := hstream
      simp

/-- Selecting a document's row presents a host, and it tunes in to what the document publishes. -/
def SelectionTunesIn (isURL : String → Bool) (data : Document) : Prop :=
  ∀ hostArr row c, hostArr[row]? = some data →
    ∃ c' host, didSelectRowAt mainStoryboard hostArr row c = .presented c' host ∧
      TunesIn isURL data host

/-- **Tuning in.** After any run, a document of `hosts` can be tuned in to as it says exactly when
it publishes nothing. -/
theorem selectionTunesIn_iff (h : Runs.run step {} t = some w) :
    ∀ id data, (w.db.collection ["hosts"]).lookup id = some data →
      ∀ isURL, SelectionTunesIn isURL data ↔ data.lookup "stream" = none := by
  intro id data hd isURL
  obtain ⟨email, texts, -, -, hinfo⟩ := hosts_doc h hd
  have hdec : (hostInfo? data).isSome := by simp [hinfo]
  rw [← streamMap_eq_none_iff h hd]
  constructor
  · intro hall
    have hrow : [data][0]? = some data := rfl
    obtain ⟨c₁, host, hsel, htunes⟩ := hall [data] 0 {} hrow
    obtain ⟨c₂, info, -, hsel'⟩ := (row_of_decodes hrow hdec {}).2
    rw [hsel] at hsel'
    obtain ⟨-, rfl⟩ := Selection.presented.inj hsel'
    exact (tunesIn_fill_iff isURL data info).mp htunes
  · intro hnone hostArr row c hrow
    obtain ⟨c', info, -, hsel⟩ := (row_of_decodes hrow hdec c).2
    exact ⟨c', _, hsel, (tunesIn_fill_iff isURL data info).mpr hnone⟩

theorem selectionTunesIn_djRun :
    SelectionTunesIn (fun _ => true) djDocument ↔ djDocument.lookup "stream" = none :=
  selectionTunesIn_iff run_djRun "dj" djDocument lookup_djWorld _

/-- The host of `djRun` is live, and nobody can tune in. -/
theorem live_host_not_tuned_in :
    ¬ ∀ (t : List Action) (w : World), Runs.run step {} t = some w →
      ∀ id data, (w.db.collection ["hosts"]).lookup id = some data →
        ∀ isURL, SelectionTunesIn isURL data := by
  intro h
  have hall := h djRun djWorld run_djRun "dj" djDocument lookup_djWorld fun _ => true
  obtain ⟨c', host, hsel, htunes⟩ := hall [djDocument] 0 {} rfl
  obtain rfl : Host.fill {} (hostInfo "dj@waxxy.live" djTexts) = host :=
    (Selection.presented.inj hsel).2
  have hnone := (tunesIn_fill_iff _ _ _).mp htunes
  simp [streamMap, djDocument, patchObject, djPlayback, PlaybackData.fields, Value.mergeInto] at hnone

end WaxxyLive.Clients
