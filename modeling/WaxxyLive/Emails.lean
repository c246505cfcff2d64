import Mathlib.Data.Multiset.Bind
import WaxxyLive.Profiles

/-!
# Each email writes one profile

Auth gives out one account per email, a profile write is sent only in the
completion that gave one out, and a call is answered once. So the emails of the
outstanding and of the completed profile writes are distinct, whatever order
the clients' calls are answered in.
-/

namespace WaxxyLive.Clients

open Firestore CoreData Registration Streaming

/-- The email of a profile write. -/
def Call.email : Call → Multiset String
  | .setData p _ => {p.email}
  | .createUser _ _ _ | .merge _ _ | .update _ => 0

/-- The emails of the profile writes outstanding in `w` or completed in `t`. -/
def emails (t : List Action) (w : World) : Multiset String :=
  w.calls.bind Call.email + ((registrations t).map (·.profile.email) : List String)

structure EmailsOk (t : List Action) (w : World) : Prop where
  nodup : (emails t w).Nodup
  accounts : ∀ email ∈ emails t w, email ∈ w.accounts

variable {t t' : List Action} {w w' : World}

theorem EmailsOk.mono (h : EmailsOk t w) (hle : emails t' w' ≤ emails t w)
    (ha : w'.accounts = w.accounts) : EmailsOk t' w' where
  nodup := Multiset.nodup_of_le hle h.nodup
  accounts email he := ha ▸ h.accounts email (Multiset.mem_of_le hle he)

/-- A new account lets one more write with its email through. -/
theorem EmailsOk.cons {email : String} (h : EmailsOk t w) (hnew : email ∉ w.accounts)
    (hle : emails t' w' ≤ email ::ₘ emails t w)
    (ha : ∀ e, e ∈ w'.accounts ↔ e = email ∨ e ∈ w.accounts) : EmailsOk t' w' where
  nodup := Multiset.nodup_of_le hle
    (Multiset.nodup_cons.mpr ⟨fun he => hnew (h.accounts email he), h.nodup⟩)
  accounts e he := by
    rw [ha]
    exact (Multiset.mem_cons.mp (Multiset.mem_of_le hle he)).imp_right (h.accounts e)

theorem registrations_concat (t : List Action) (a : Action) :
    registrations (t ++ [a]) = registrations t ++ registrations [a] :=
  List.filterMap_append

theorem emails_issue (call : Call) : emails t (w.issue call) = call.email + emails t w := by
  simp only [emails, World.issue, Multiset.cons_bind, Multiset.add_assoc]

theorem emails_answered {call : Call} (hc : call ∈ w.calls) :
    emails t w = call.email + emails t { w with calls := w.calls.erase call } := by
  rw [← emails_issue, World.issue, Multiset.cons_erase hc]

theorem emails_erase_le (call : Call) :
    emails t { w with calls := w.calls.erase call } ≤ emails t w := by
  by_cases hc : call ∈ w.calls
  · rw [emails_answered hc]
    exact Multiset.le_add_left _ _
  · rw [Multiset.erase_of_notMem hc]

theorem emails_concat (a : Action) :
    emails (t ++ [a]) w = emails t w + ((registrations [a]).map (·.profile.email) : List String) := by
  simp [emails, registrations_concat, Multiset.add_assoc, ← Multiset.coe_add]

/-- A step that completes no profile write and sends none. -/
theorem EmailsOk.quiet {a : Action} (h : EmailsOk t w) (ha : registrations [a] = [])
    (hle : emails t w' ≤ emails t w) (hacc : w'.accounts = w.accounts) :
    EmailsOk (t ++ [a]) w' :=
  h.mono (by simpa [emails_concat, ha] using hle) hacc

/-- The completion of an accepted `createUser` sends at most the write of its own email. -/
theorem emails_createUserCompletion_le (p : Profile) :
    emails t (w.createUserCompletion p) ≤ p.email ::ₘ emails t w := by
  unfold World.createUserCompletion
  split
  case h_1 ref href => simp [emails_issue, Call.email]
  case h_2 => exact Multiset.le_cons_self _ _

theorem createUserCompletion_accounts (p : Profile) :
    (w.createUserCompletion p).accounts = w.accounts := by
  unfold World.createUserCompletion
  split <;> rfl

theorem createStream_accounts (host : Option Host) (playback : PlaybackData) :
    (w.createStream host playback).accounts = w.accounts := by
  unfold World.createStream
  split <;> rfl

theorem handleStopButton_accounts (host : Option Host) :
    (w.handleStopButton host).accounts = w.accounts := by
  unfold World.handleStopButton
  split <;> rfl

theorem emails_createStream (host : Option Host) (playback : PlaybackData) :
    emails t (w.createStream host playback) = emails t w := by
  unfold World.createStream
  split <;> simp [emails_issue, Call.email]

theorem emails_handleStopButton (host : Option Host) :
    emails t (w.handleStopButton host) = emails t w := by
  unfold World.handleStopButton
  split <;> simp [emails_issue, Call.email]

theorem emailsOk_step {a : Action} (h : EmailsOk t w) (hs : step w a = some w') :
    EmailsOk (t ++ [a]) w' := by
  cases a with
  | finishTapped role email password =>
    obtain rfl := step_finishTapped.mp hs
    exact h.quiet rfl (by simp [emails_issue, Call.email]) rfl
  | createUserCompleted password p =>
    obtain ⟨-, hnew, rfl⟩ := step_createUserCompleted.mp hs
    refine h.cons hnew ?_ fun e => ?_
    · let calls := w.calls.erase (.createUser p.entry.role p.email password)
      have hle : emails t { w with accounts := w.accounts.insert p.email password, calls } ≤
          emails t w := emails_erase_le (.createUser p.entry.role p.email password)
      rw [emails_concat]
      simpa [registrations] using (emails_createUserCompletion_le p).trans
        (Multiset.cons_le_cons p.email hle)
    · rw [createUserCompletion_accounts]
      exact AList.mem_insert _
  | setDataCompleted p ref =>
    obtain ⟨hc, rfl⟩ := step_setDataCompleted.mp hs
    refine h.mono (le_of_eq ?_) rfl
    rw [emails_answered hc, emails_concat, Multiset.add_comm]
    rfl
  | mergeCompleted ref playback =>
    obtain ⟨-, rfl⟩ := step_mergeCompleted.mp hs
    exact h.quiet rfl (emails_erase_le (.merge ref playback)) rfl
  | updateCompleted ref =>
    obtain ⟨-, data, -, rfl⟩ := step_updateCompleted.mp hs
    exact h.quiet rfl (emails_erase_le (.update ref)) rfl
  | failed call =>
    obtain ⟨-, rfl⟩ := step_failed.mp hs
    exact h.quiet rfl (emails_erase_le call) rfl
  | opened host =>
    obtain ⟨-, rfl⟩ := step_opened.mp hs
    exact h.quiet rfl le_rfl rfl
  | loggedIn p =>
    obtain ⟨-, doc, -, rfl⟩ := step_loggedIn.mp hs
    exact h.quiet rfl le_rfl rfl
  | streamCreated session playback =>
    obtain ⟨host, -, rfl⟩ := step_streamCreated.mp hs
    exact h.quiet rfl (emails_createStream host playback).le (createStream_accounts host playback)
  | stopPressed session =>
    obtain ⟨host, -, rfl⟩ := step_stopPressed.mp hs
    exact h.quiet rfl (emails_handleStopButton host).le (handleStopButton_accounts host)

theorem emailsOk_run (h : Runs.run step {} t = some w) : EmailsOk t w :=
  Runs.run_induction ⟨by simp [emails, registrations], by simp [emails, registrations]⟩
    (fun _ _ _ _ _ => emailsOk_step) h

/-- No two completed profile writes carry one email. -/
theorem registrations_email_inj (h : Runs.run step {} t = some w)
    {r r' : Registry.Write DocumentReference Profile} (hr : r ∈ registrations t)
    (hr' : r' ∈ registrations t) (he : r.profile.email = r'.profile.email) : r = r' := by
  have hnd := (Multiset.nodup_add.mp (emailsOk_run h).nodup).2.1
  exact List.inj_on_of_nodup_map (Multiset.coe_nodup.mp hnd) hr hr' he

theorem registrations_nodup (h : Runs.run step {} t = some w) : (registrations t).Nodup :=
  List.Nodup.of_map _ (Multiset.coe_nodup.mp (Multiset.nodup_add.mp (emailsOk_run h).nodup).2.1)

end WaxxyLive.Clients
