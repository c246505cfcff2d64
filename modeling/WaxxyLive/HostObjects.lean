import WaxxyLive.Lib.Runs
import WaxxyLive.Lib.Tables
import WaxxyLive.Browse

/-!
# The `Host` objects in the view context

Every press of the login button and every row selected in the browser inserts
an object into the context that is saved when the app goes to the background.
`inv_run` says which usernames a run leaves there.
-/

namespace WaxxyLive.HostObjects

open Firestore CoreData Registration TabBars Login Browse

/-- The container, and the objects whose login query is outstanding. -/
structure App where
  coreData : Container := {}
  outstanding : List Nat := []

inductive Action where
  | loginPressed (p : Press)
  | queryCompleted (ref : Nat) (r : QueryResult)
  | rowSelected (hostArr : List Document) (row : Nat)
  | sceneDidEnterBackground

/-- One action; `none` where it cannot happen or the app traps. -/
def step (app : App) : Action → Option App
  | .loginPressed p =>
    if p.isHost then
      let s := didPressBaseLoginButton p app.coreData
      some { coreData := s.coreData, outstanding := app.outstanding ++ s.host.toList }
    else none
  | .queryCompleted ref r =>
    if ref ∈ app.outstanding then
      let s := queryCompletion r
        { coreData := app.coreData, isHost := true, host := some ref, listener := none }
      if s.trapped then none
      else some { coreData := s.coreData, outstanding := app.outstanding.erase ref }
    else none
  | .rowSelected hostArr row =>
    match didSelectRowAt mainStoryboard hostArr row app.coreData with
    | .trapped => none
    | .ignored => some app
    | .presented coreData _ => some { app with coreData }
  | .sceneDidEnterBackground => some { app with coreData := app.coreData.saveContext }

def App.hosts (app : App) : List Host := app.coreData.viewContext.hosts

/-- The number of objects with a username in a context. -/
def countHosts (c : Context) (username : String) : Nat :=
  (c.hosts.filterMap Host.username).count username

/-- The username an action fills an object with, if it fills one: a query whose first document
decodes, or a selected row that does. -/
def Action.fills : Action → Option String
  | .queryCompleted _ (.documents (data :: _)) => (hostInfo? data).map HostInfo.username
  | .rowSelected hostArr row => (hostArr[row]?.bind hostInfo?).map HostInfo.username
  | _ => none

/-! ## What the actions do to the objects -/

section Steps

variable {app app' : App}

theorem fillHost_username {data : Document} {host : Host} (h : host.username = none) :
    (fillHost data host).username = (hostInfo? data).map HostInfo.username := by
  unfold fillHost
  cases hostInfo? data with
  | none => simpa using h
  | some info => rfl

theorem step_loginPressed {p : Press} : step app (.loginPressed p) = some app' ↔
    p.isHost ∧ app' = ⟨app.coreData.insertHost.1, app.outstanding ++ [app.hosts.length]⟩ := by
  by_cases hp : p.isHost <;>
    simp [step, didPressBaseLoginButton, hp, Container.insertHost, App.hosts, @eq_comm _ app']

theorem step_queryCompleted {ref : Nat} {r : QueryResult} :
    step app (.queryCompleted ref r) = some app' ↔ ref ∈ app.outstanding ∧
      (r = .error ∧ app' = ⟨app.coreData, app.outstanding.erase ref⟩ ∨
        ∃ data rest, r = .documents (data :: rest) ∧
          app' = ⟨app.coreData.modifyHost ref (fillHost data), app.outstanding.erase ref⟩) := by
  by_cases href : ref ∈ app.outstanding
  · rcases r with _ | _ | ⟨data, rest⟩ <;>
      simp [step, href, queryCompletion, State.fill, @eq_comm _ app']
  · simp [step, href]

/-- A selected row that decodes adds a filled object; any other leaves the context alone. -/
theorem step_rowSelected {hostArr : List Document} {row : Nat}
    (h : step app (.rowSelected hostArr row) = some app') :
    app'.outstanding = app.outstanding ∧
      match hostArr[row]?.bind hostInfo? with
      | some info => app'.hosts = app.hosts ++ [Host.fill {} info]
      | none => app'.hosts = app.hosts := by
  have hsb : mainStoryboard.instantiates "HostProfileViewController" .hostProfileViewController :=
    by decide
  by_cases hlen : hostArr.length = 0
  · have hnil : hostArr = [] := List.length_eq_zero_iff.mp hlen
    subst hnil
    obtain rfl : app = app' := by simpa [step, didSelectRowAt, hsb] using h
    simp
  · cases hrow : hostArr[row]? with
    | none => simp [step, didSelectRowAt, hsb, hlen, hrow] at h
    | some data =>
      cases hinfo : hostInfo? data with
      | none =>
        obtain rfl : app = app' := by simpa [step, didSelectRowAt, hsb, hlen, hrow, hinfo] using h
        simp [hinfo]
      | some info =>
        obtain rfl : (⟨app.coreData.insertHost.1.modifyHost app.coreData.insertHost.2
            (·.fill info), app.outstanding⟩ : App) = app' := by
          simpa [step, didSelectRowAt, hsb, hlen, hrow, hinfo] using h
        refine ⟨rfl, ?_⟩
        simp only [Option.bind_some, hinfo]
        exact Tables.modify_concat app.hosts {} _

end Steps

/-! ## The invariant -/

/-- The usernames in the context are those the actions filled in, and the objects whose query is
outstanding have none. -/
structure Inv (t : List Action) (app : App) : Prop where
  usernames : (app.hosts.filterMap Host.username).Perm (t.filterMap Action.fills)
  nodup : app.outstanding.Nodup
  unfilled : ∀ ref ∈ app.outstanding, ∃ host, app.hosts[ref]? = some host ∧ host.username = none

variable {t : List Action} {app app' : App}

theorem inv_init : Inv [] {} := ⟨by simp [App.hosts], List.nodup_nil, by simp⟩

theorem fills_concat (t : List Action) (a : Action) :
    (t ++ [a]).filterMap Action.fills = t.filterMap Action.fills ++ a.fills.toList := by
  rw [List.filterMap_append]
  cases ha : a.fills <;> simp [ha]

/-- An action that adds the username it fills in keeps the usernames those filled in. -/
theorem Inv.usernames_concat {a : Action} (h : Inv t app)
    (ha : (app'.hosts.filterMap Host.username).Perm
      (app.hosts.filterMap Host.username ++ a.fills.toList)) :
    (app'.hosts.filterMap Host.username).Perm ((t ++ [a]).filterMap Action.fills) := by
  rw [fills_concat]
  exact ha.trans (h.usernames.append_right a.fills.toList)

theorem inv_loginPressed {p : Press} (h : Inv t app)
    (hs : step app (.loginPressed p) = some app') : Inv (t ++ [.loginPressed p]) app' := by
  rcases step_loginPressed.mp hs with ⟨-, rfl⟩
  have hlt : ∀ ref ∈ app.outstanding, ref < app.hosts.length := by
    intro ref href
    rcases h.unfilled ref href with ⟨host, hget, -⟩
    exact (List.getElem?_eq_some_iff.mp hget).1
  have hhosts : App.hosts ⟨app.coreData.insertHost.1, app.outstanding ++ [app.hosts.length]⟩ =
      app.hosts ++ [({} : Host)] := rfl
  refine ⟨h.usernames_concat ?_, ?_, fun ref href => ?_⟩
  · simp [hhosts, Action.fills]
  · refine List.nodup_append.mpr ⟨h.nodup, List.nodup_singleton _, fun ref href ref' href' => ?_⟩
    have hlen := hlt ref href
    rw [List.mem_singleton.mp href']
    omega
  · rw [hhosts]
    rcases List.mem_append.mp href with href | href
    · rcases h.unfilled ref href with ⟨host, hget, hnone⟩
      exact ⟨host, by rw [List.getElem?_append_left (hlt ref href), hget], hnone⟩
    · rw [List.mem_singleton.mp href]
      exact ⟨{}, List.getElem?_concat_length, rfl⟩

theorem inv_queryCompleted {ref : Nat} {r : QueryResult} (h : Inv t app)
    (hs : step app (.queryCompleted ref r) = some app') :
    Inv (t ++ [.queryCompleted ref r]) app' := by
  rcases step_queryCompleted.mp hs with ⟨href, ⟨rfl, rfl⟩ | ⟨data, rest, rfl, rfl⟩⟩
  · refine ⟨h.usernames_concat ?_, h.nodup.erase ref, fun ref' href' => ?_⟩
    · simp [App.hosts, Action.fills]
    · exact h.unfilled ref' (List.mem_of_mem_erase href')
  · rcases h.unfilled ref href with ⟨host, hget, hnone⟩
    have hhosts : App.hosts ⟨app.coreData.modifyHost ref (fillHost data),
        app.outstanding.erase ref⟩ = app.hosts.modify ref (fillHost data) := rfl
    have hfill : (fillHost data host).username = (hostInfo? data).map HostInfo.username :=
      fillHost_username hnone
    refine ⟨h.usernames_concat ?_, h.nodup.erase ref, fun ref' href' => ?_⟩
    · rw [hhosts, Action.fills]
      cases hinfo : (hostInfo? data).map HostInfo.username with
      | none =>
        rw [Tables.filterMap_modify_of_none hget hnone (hfill.trans hinfo)]
        simp
      | some username =>
        have hperm := Tables.filterMap_modify_perm hget hnone (hfill.trans hinfo)
        exact hperm.trans (List.perm_append_singleton username _).symm
    · rcases (h.nodup.mem_erase_iff).mp href' with ⟨hne, hmem⟩
      rcases h.unfilled ref' hmem with ⟨host', hget', hnone'⟩
      exact ⟨host', by simpa [hhosts, Ne.symm hne] using hget', hnone'⟩

theorem inv_rowSelected {hostArr : List Document} {row : Nat} (h : Inv t app)
    (hs : step app (.rowSelected hostArr row) = some app') :
    Inv (t ++ [.rowSelected hostArr row]) app' := by
  rcases step_rowSelected hs with ⟨hout, hhosts⟩
  cases hinfo : hostArr[row]?.bind hostInfo? with
  | none =>
    simp only [hinfo] at hhosts
    refine ⟨h.usernames_concat ?_, hout ▸ h.nodup, fun ref href => ?_⟩
    · simp [hhosts, Action.fills, hinfo]
    · rw [hhosts]
      exact h.unfilled ref (hout ▸ href)
  | some info =>
    simp only [hinfo] at hhosts
    refine ⟨h.usernames_concat ?_, hout ▸ h.nodup, fun ref href => ?_⟩
    · simp [hhosts, Action.fills, hinfo, Host.fill]
    · rcases h.unfilled ref (hout ▸ href) with ⟨host, hget, hnone⟩
      refine ⟨host, ?_, hnone⟩
      rw [hhosts, List.getElem?_append_left (List.getElem?_eq_some_iff.mp hget).1, hget]

theorem inv_run (h : Runs.run step {} t = some app) : Inv t app := by
  refine Runs.run_induction (P := Inv) inv_init ?_ h
  intro t app a app' _ hinv hs
  cases a with
  | loginPressed p => exact inv_loginPressed hinv hs
  | queryCompleted ref r => exact inv_queryCompleted hinv hs
  | rowSelected hostArr row => exact inv_rowSelected hinv hs
  | sceneDidEnterBackground =>
    obtain rfl := Option.some.inj hs
    exact ⟨hinv.usernames_concat (by simp [App.hosts, Container.saveContext, Action.fills]),
      hinv.nodup, hinv.unfilled⟩

/-- **`Host` objects.** After any run the view context, and the store once it is saved, have one
object of a username for each login query and each selected row that filled one with it. -/
theorem hosts_counted (h : Runs.run step {} t = some app) (username : String) :
    countHosts app.coreData.viewContext username = (t.filterMap Action.fills).count username ∧
      ∀ app', step app .sceneDidEnterBackground = some app' →
        countHosts app'.coreData.store username = (t.filterMap Action.fills).count username := by
  have hcount : countHosts app.coreData.viewContext username =
      (t.filterMap Action.fills).count username :=
    (inv_run h).usernames.count_eq username
  refine ⟨hcount, fun app' hs => ?_⟩
  obtain rfl := Option.some.inj hs
  exact hcount

/-- A host logs in, selects its own row and leaves the app. -/
def loginAndSelect : List Action :=
  [.loginPressed ⟨1, "dj@waxxy.live", "secret"⟩,
    .queryCompleted 0 (.documents [djProfile.docData]), .rowSelected [djProfile.docData] 0,
    .sceneDidEnterBackground]

theorem hosts_counted_loginAndSelect :
    ∃ app, Runs.run step {} loginAndSelect = some app ∧
      countHosts app.coreData.viewContext "dj" =
        (loginAndSelect.filterMap Action.fills).count "dj" ∧
      ∀ app', step app .sceneDidEnterBackground = some app' →
        countHosts app'.coreData.store "dj" =
          (loginAndSelect.filterMap Action.fills).count "dj" :=
  ⟨_, rfl, hosts_counted (show Runs.run step {} loginAndSelect = _ from rfl) "dj"⟩

/-- The context can hold two objects of one username. -/
theorem two_hosts_of_one_username :
    ¬ ∀ (t : List Action) (app : App), Runs.run step {} t = some app →
      ∀ username, countHosts app.coreData.viewContext username ≤ 1 := by
  intro h
  have hle := h loginAndSelect _ rfl "dj"
  revert hle
  decide

end WaxxyLive.HostObjects
