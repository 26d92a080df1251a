import CloneProjects.Tinder.Settings.Buffer

/-!
# Saves, within a session and across sessions

A user opens the Settings screen any number of times: each time the controller is new, while the stored
documents and the Saves on their way to Firestore stay. `save_lands` follows one Save from its press to the
stored document.
-/

namespace CloneProjects.Tinder.Settings

open EventRun (run)

/-- The screen is opened afresh, or something happens on it. -/
inductive SessionEvent
  | opened
  | screen (e : Event)

def sessionStep (accepts : String → Bool) (w : World) : SessionEvent → Option World
  | .opened => some { w with screen := viewDidLoad w.uid }
  | .screen e => step accepts w e

section
variable {accepts : String → Bool} {w w' s₀ m : World} {e : Event} {x : SessionEvent} {uid : String} {i : ℕ}

/-- One session is a sequence of sessions. -/
theorem run_screen (es : List Event) :
    run (sessionStep accepts) w (es.map .screen) = run (step accepts) w es := by
  induction es generalizing w with
  | nil => rfl
  | cons e es ih =>
    simp only [List.map_cons, EventRun.run_cons, sessionStep, ih]

/-- Only a press and the callback of `setData` touch the Saves and the store. -/
theorem step_saves (hstep : step accepts w e = some w') :
    (w'.saves = w.saves ∧ w'.users = w.users) ∨ (e = .savePressed ∧ w' = saveInfoButtonPressed w) ∨
      ∃ i error, e = .saveCallback i error := by
  cases e with
  | savePressed => exact .inr (.inl ⟨rfl, step_savePressed hstep⟩)
  | saveCallback i error => exact .inr (.inr ⟨i, error, rfl⟩)
  | _ =>
    have hstore := (step_frame hstep).store rfl
    exact .inl ⟨hstore.2, hstore.1⟩

/-- A Save keeps its request. -/
theorem step_request {save : Save} (hstep : step accepts w e = some w') (hsave : w.saves[i]? = some save) :
    ∃ save', w'.saves[i]? = some save' ∧ save'.request = save.request := by
  rcases step_saves hstep with ⟨hsame, _⟩ | ⟨_, rfl⟩ | ⟨j, error, rfl⟩
  · exact ⟨save, hsame ▸ hsave, rfl⟩
  · rw [saveInfoButtonPressed]
    split <;> exact ⟨save, CallTable.getElem?_concat_of hsave, rfl⟩
  · have hfinished : ∃ save', (w.saves.modify j Save.finished)[i]? = some save' ∧
        save'.request = save.request := CallTable.exists_modify_of hsave (fun _ => rfl) fun _ => rfl
    obtain ⟨_, _, _, _, _, _, ⟨_, _, rfl⟩ | ⟨_, rfl⟩⟩ := step_saveCallback hstep <;> exact hfinished

/-- The store changes when a Save is applied. -/
theorem step_users (hstep : step accepts w e = some w') (he : ∀ i, e ≠ .saveCallback i none) :
    w'.users = w.users := by
  rcases step_saves hstep with ⟨_, hsame⟩ | ⟨_, rfl⟩ | ⟨i, error, rfl⟩
  · exact hsame
  · rw [saveInfoButtonPressed]
    split <;> rfl
  · obtain ⟨_, _, _, _, _, _, ⟨_, _, rfl⟩ | ⟨rfl, _⟩⟩ := step_saveCallback hstep
    · rfl
    · exact absurd rfl (he i)

theorem sessionStep_request {save : Save} (hstep : sessionStep accepts w x = some w')
    (hsave : w.saves[i]? = some save) : ∃ save', w'.saves[i]? = some save' ∧ save'.request = save.request := by
  cases x with
  | opened =>
    simp only [sessionStep, Option.some.injEq] at hstep
    subst hstep
    exact ⟨save, hsave, rfl⟩
  | screen e => exact step_request hstep hsave

theorem sessionStep_users (hstep : sessionStep accepts w x = some w')
    (hx : ∀ i, x ≠ .screen (.saveCallback i none)) : w'.users = w.users := by
  cases x with
  | opened =>
    simp only [sessionStep, Option.some.injEq] at hstep
    subst hstep
    rfl
  | screen e => exact step_users hstep fun i he => hx i (congrArg _ he)

theorem run_sessions {users : String → Option Infos} {xs : List SessionEvent}
    (hrun : run (sessionStep accepts) (opened (some uid) users) xs = some w) :
    Session uid w ∧ (w.buffer uid).LoadsOnce := by
  refine EventRun.run_invariant (P := fun w => Session uid w ∧ (w.buffer uid).LoadsOnce) ?_
    ⟨session_opened uid users, fun _ => rfl⟩ hrun
  rintro s x s' ⟨hsession, honce⟩ hstep
  cases x with
  | opened =>
    simp only [sessionStep, Option.some.injEq] at hstep
    subst hstep
    refine ⟨⟨hsession.signedIn, fun u hload => ?_, hsession.saves⟩, fun _ => rfl⟩
    simp only [viewDidLoad] at hload
    split at hload
    · rename_i v huid
      rw [← Load.getDocument.inj hload]
      exact hsession.signedIn v huid
    · cases hload
  | screen e => exact ⟨step_session hstep hsession, (step_buffer hstep hsession).loadsOnce honce⟩

/-- A press appends a Save of the signed-in user's document, encoded from the copy of this moment. -/
theorem press_request (hstep : step accepts w .savePressed = some w') : ∃ save,
    w'.saves[w.saves.length]? = some save ∧
      save.request = w.uid.map fun uid => (uid, datas uid w.screen.currentUser) := by
  rw [step_savePressed hstep, saveInfoButtonPressed]
  split
  · rename_i huid
    exact ⟨_, CallTable.getElem?_concat_eq_some.mpr (.inr ⟨rfl, rfl⟩), by rw [huid]; rfl⟩
  · rename_i uid huid
    exact ⟨_, CallTable.getElem?_concat_eq_some.mpr (.inr ⟨rfl, rfl⟩), by rw [huid]; rfl⟩

theorem run_request {es : List SessionEvent} {request : Option (String × Infos)}
    (hsave : ∃ save, w.saves[i]? = some save ∧ save.request = request)
    (hrun : run (sessionStep accepts) w es = some w') :
    ∃ save, w'.saves[i]? = some save ∧ save.request = request := by
  refine EventRun.run_invariant (P := fun s => ∃ save, s.saves[i]? = some save ∧ save.request = request) ?_ hsave
    hrun
  rintro s x s' ⟨save, hsave, hrequest⟩ hstep
  obtain ⟨save', hsave', heq⟩ := sessionStep_request hstep hsave
  exact ⟨save', hsave', heq.trans hrequest⟩

/-- A Save that was applied, with none applied since, is what is stored: the document encoded at its press. -/
theorem save_lands {pre mid post : List SessionEvent} (hpre : run (sessionStep accepts) s₀ pre = some m)
    (hrun : run (sessionStep accepts) s₀ (pre ++ .screen .savePressed ::
      (mid ++ .screen (.saveCallback m.saves.length none) :: post)) = some w)
    (hpost : ∀ i, .screen (.saveCallback i none) ∉ post) :
    ∃ uid, m.uid = some uid ∧ w.users uid = some (datas uid m.screen.currentUser) := by
  obtain ⟨m', hpress, hrest⟩ := EventRun.step_of_run hpre hrun
  obtain ⟨a, b, hmid, happly, htail⟩ := EventRun.exists_step hrest
  change step accepts m .savePressed = some m' at hpress
  change step accepts a (.saveCallback m.saves.length none) = some b at happly
  obtain ⟨save, hsave, hrequest⟩ := run_request (press_request hpress) hmid
  obtain ⟨save', uid, written, hsave', hrequest', _, ⟨_, hnone, _⟩ | ⟨_, rfl⟩⟩ := step_saveCallback happly
  · cases hnone
  · rw [hsave] at hsave'
    cases hsave'
    obtain ⟨uid', huid, heq⟩ := Option.map_eq_some_iff.mp (hrequest.symm.trans hrequest')
    cases heq
    refine ⟨uid, huid, ?_⟩
    refine EventRun.run_suffix (P := fun _ s => s.users uid = some (datas uid m.screen.currentUser))
      EventRun.run_nil (Function.update_self ..) (fun _ s x s' _ hx hs hstep => ?_) htail
    rw [sessionStep_users hstep fun i he => hpost i (he ▸ hx)]
    exact hs

/-- The same within one session. -/
theorem save_lands_in_session {users : String → Option Infos} {pre mid post : List Event}
    (hpre : run (step accepts) (opened (some uid) users) pre = some m)
    (hrun : run (step accepts) (opened (some uid) users)
      (pre ++ .savePressed :: (mid ++ .saveCallback m.saves.length none :: post)) = some w)
    (hpost : ∀ i, .saveCallback i none ∉ post) : w.users uid = some (datas uid m.screen.currentUser) := by
  have hsession := run_session hpre
  rw [← run_screen] at hpre hrun
  rw [List.map_append, List.map_cons, List.map_append, List.map_cons] at hrun
  obtain ⟨v, hv, hstored⟩ := save_lands hpre hrun (by simpa using hpost)
  rwa [hsession.signedIn v hv] at hstored

end

end CloneProjects.Tinder.Settings
