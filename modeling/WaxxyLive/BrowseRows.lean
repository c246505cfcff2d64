import WaxxyLive.Lib.FirstSeen
import WaxxyLive.HostsCollection

/-!
# The rows of the host browser

`HostBrowseViewController` adds what a query delivers to the rows it has, unless
an equal document is there, and reloads its table later. By `rows_eq_addAll`
the rows are what all completions delivered, without repetitions, and by
`rows_append` a row the table has read stays.
-/

namespace WaxxyLive.Clients

open Firestore Registration Login Browse FirstSeen

/-- The documents delivered, in order. -/
def delivered (results : List QueryResult) : List Document :=
  results.flatMap fun
    | .error => []
    | .documents docs => docs

/-- What the rows are after the completions, and after any further ones. -/
structure RowsStable (isEqual : Document → Document → Bool) (results : List QueryResult) :
    Prop where
  distinct : Distinct isEqual (rows isEqual results)
  firstDelivered : rows isEqual results = (delivered results).eraseDupsBy isEqual
  mem_delivered : ∀ data ∈ rows isEqual results, data ∈ delivered results
  delivered_mem : ∀ data ∈ delivered results, ∃ row ∈ rows isEqual results, isEqual row data
  error : rows isEqual (results ++ [.error]) = rows isEqual results
  redelivered : ∀ docs, (∀ data ∈ docs, data ∈ delivered results) →
    rows isEqual (results ++ [.documents docs]) = rows isEqual results
  index : ∀ (more : List QueryResult) (row : Nat) (data : Document),
    (rows isEqual results)[row]? = some data →
    (rows isEqual (results ++ more))[row]? = some data
  valid : ∀ more, ∀ row < (rows isEqual results).length,
    row < (rows isEqual (results ++ more)).length

variable {isEqual : Document → Document → Bool}

theorem loadUpHosts_documents (hostArr docs : List Document) :
    loadUpHosts isEqual hostArr (.documents docs) = addAll isEqual hostArr docs := rfl

/-- Completions add all they deliver. -/
theorem foldl_loadUpHosts (hostArr : List Document) (results : List QueryResult) :
    results.foldl (loadUpHosts isEqual) hostArr = addAll isEqual hostArr (delivered results) := by
  induction results generalizing hostArr with
  | nil => rfl
  | cons r results ih =>
    rw [List.foldl_cons, ih]
    cases r with
    | error => rfl
    | documents docs =>
      have hcons : delivered (.documents docs :: results) = docs ++ delivered results := rfl
      rw [loadUpHosts_documents, hcons, addAll_append]

theorem rows_eq_addAll (results : List QueryResult) :
    rows isEqual results = addAll isEqual [] (delivered results) :=
  foldl_loadUpHosts [] results

theorem rows_append (results more : List QueryResult) :
    rows isEqual (results ++ more) = addAll isEqual (rows isEqual results) (delivered more) := by
  rw [rows, List.foldl_append, foldl_loadUpHosts, rows]

/-- **Rows.** With `NSDictionary` equality an equivalence. -/
theorem rows_stable (hequiv : Equivalence fun a b => isEqual a b = true)
    (results : List QueryResult) : RowsStable isEqual results := by
  have hdelivered : ∀ data ∈ delivered results, ∃ row ∈ rows isEqual results, isEqual row data := by
    intro data hdata
    rw [rows_eq_addAll]
    exact seen_addAll hequiv.refl hdata
  have hpre : ∀ more, rows isEqual results <+: rows isEqual (results ++ more) := by
    intro more
    rw [rows_append]
    exact prefix_addAll (rows isEqual results) (delivered more)
  constructor
  · rw [rows_eq_addAll]
    exact distinct_addAll List.Pairwise.nil (delivered results)
  · rw [rows_eq_addAll, addAll_eq (same_comm hequiv)]
    simp
  · intro data hdata
    rw [rows_eq_addAll] at hdata
    exact (mem_addAll hdata).resolve_left (by simp)
  · exact hdelivered
  · rw [rows_append]
    rfl
  · intro docs hdocs
    rw [rows_append]
    refine addAll_of_seen fun data hdata => ?_
    have hmem : data ∈ docs := by simpa [delivered] using hdata
    exact hdelivered data (hdocs data hmem)
  · intro more row data hrow
    rcases List.getElem?_eq_some_iff.mp hrow with ⟨hlt, rfl⟩
    exact List.prefix_iff_getElem?.mp (hpre more) row hlt
  · intro more row hrow
    exact hrow.trans_le (hpre more).length_le

/-- Two completions that deliver one host three times and another once, with an error in between. -/
def twiceDelivered : List QueryResult :=
  [.documents [djProfile.docData, djProfile.docData], .error,
    .documents [Profile.docData ⟨"mc@waxxy.live", .host ⟨"mc", "Grime", "MC", "London"⟩⟩,
      djProfile.docData]]

def sameUsername (a b : Document) : Bool := a.string? "username" == b.string? "username"

theorem rows_stable_twiceDelivered : RowsStable sameUsername twiceDelivered :=
  rows_stable (equivalence_key fun data : Document => data.string? "username") twiceDelivered

end WaxxyLive.Clients
