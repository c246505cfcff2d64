import Mathlib.Data.List.Find
import Mathlib.Data.List.Nodup

/-!
# Last-writer-wins logs

A keyed store in which every write replaces what was there shows, at each key,
the last write to it. For a log of writes, oldest first, `lastWrite` is that
write; `survives_iff_keys_nodup` says when no write of the log is lost.
-/

namespace WriteLog

variable {ν κ : Type*} [DecidableEq κ] (key : ν → κ)

/-- The last write of the log to the key `k`. -/
def lastWrite (log : List ν) (k : κ) : Option ν :=
  log.reverse.find? fun w => key w = k

@[simp] theorem lastWrite_nil (k : κ) : lastWrite key [] k = none := rfl

@[simp] theorem lastWrite_concat (log : List ν) (w : ν) (k : κ) :
    lastWrite key (log ++ [w]) k = if key w = k then some w else lastWrite key log k := by
  by_cases h : key w = k <;> simp [lastWrite, h]

variable {key}

theorem lastWrite_mem {log : List ν} {k : κ} {w : ν} (h : lastWrite key log k = some w) :
    w ∈ log ∧ key w = k :=
  ⟨List.mem_reverse.mp (List.mem_of_find?_eq_some h), by simpa using List.find?_some h⟩

/-- Writes dropped from the log do not matter at a key none of them went to. -/
theorem lastWrite_filter {p : ν → Bool} {log : List ν} {k : κ}
    (h : ∀ w ∈ log, key w = k → p w) :
    lastWrite key (log.filter p) k = lastWrite key log k := by
  rw [lastWrite, ← List.filter_reverse, List.find?_filter, lastWrite]
  refine List.find?_congr fun w hw => ?_
  by_cases hk : key w = k
  · simp [hk, h w (List.mem_reverse.mp hw) hk]
  · simp [hk]

variable (key) in
theorem lastWrite_isSome {log : List ν} {w : ν} (h : w ∈ log) :
    ∃ w', lastWrite key log (key w) = some w' := by
  have hs : (lastWrite key log (key w)).isSome := by
    rw [lastWrite, List.find?_isSome]
    exact ⟨w, List.mem_reverse.mpr h, by simp⟩
  exact Option.isSome_iff_exists.mp hs

/-- In a log without repetitions every write is still the one shown at its key
if and only if no two writes went to one key. -/
theorem survives_iff_keys_nodup {log : List ν} (hlog : log.Nodup) :
    (∀ w ∈ log, lastWrite key log (key w) = some w) ↔ (log.map key).Nodup := by
  rw [List.nodup_map_iff_inj_on hlog]
  constructor
  · intro h w hw w' hw' hk
    have hlast := h w hw
    rw [hk, h w' hw'] at hlast
    exact (Option.some.inj hlast).symm
  · intro h w hw
    obtain ⟨w', hw'⟩ := lastWrite_isSome key hw
    obtain ⟨hm, hk⟩ := lastWrite_mem hw'
    rw [hw', h w' hm w hw hk]

end WriteLog
