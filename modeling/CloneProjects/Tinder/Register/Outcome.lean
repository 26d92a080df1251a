import CloneProjects.Tinder.Register.Session

/-!
# What a registration leaves behind

Nothing takes an account back: a registration that fails after `createUser` keeps its account, has no profile
and blocks its email. `Call.Made` follows the accounts through a run and `Call.Stored` the profiles, the
latter as long as every call writes its own document.
-/

namespace CloneProjects.Tinder.Register

open CallTable (All)
open EventRun (along_concat)

/-- What call `i` has left in Auth: the account of its `createUser`, under the email it was asked for; a call that has
ended without one was told the error of its `createUser`. -/
structure Call.Made (accounts : List Account) (es : List Event) (i : ℕ) (call : Call) : Prop where
  created : ∀ uid, call.createdUid = some uid → .createUserCallback i (.ok uid) ∈ es ∧
    ∃ email, call.captured.emailAdress = some email ∧ ⟨uid, email⟩ ∈ accounts
  requested : ∀ email password, call.awaiting = some (.createUser email password) →
    call.captured.emailAdress = some email
  failed : call.awaiting = none → call.createdUid = none → ∃ error, call.completions = [some error] ∧
    .createUserCallback i (.error error) ∈ es

/-- A step of call `i` after its `createUser` failed with the error. -/
def LaterFailed (es : List Event) (i : ℕ) (error : SwiftError) : Prop :=
  .putDataCallback i (some error) ∈ es ∨ .downloadURLCallback i (.error error) ∈ es ∨
    .setDataCallback i (some error) ∈ es

/-- The profile of call `i` is a photo URL of its own and the texts it captured. -/
def Call.Profile (es : List Event) (i : ℕ) (call : Call) (uid : String) (infos : Infos) : Prop :=
  ∃ imageURL, .downloadURLCallback i (.ok imageURL) ∈ es ∧ infos = call.captured.dataToBeAdded imageURL uid

/-- What a call with an account has left in Firestore: nothing until all its callbacks have succeeded, its
profile after that; a failure is reported as it came. -/
def Call.Stored (users : String → Option Infos) (es : List Event) (i : ℕ) (call : Call) : Prop :=
  ∀ uid, call.createdUid = some uid →
    match call.awaiting with
    | some (.setData userID dataToBeAdded) =>
      users uid = none ∧ userID = uid ∧ call.Profile es i uid dataToBeAdded
    | some _ => users uid = none
    | none => (∃ error, call.completions = [some error] ∧ LaterFailed es i error) ∧ users uid = none ∨
        call.completions = [none] ∧ .setDataCallback i none ∈ es ∧
          ∃ infos, users uid = some infos ∧ call.Profile es i uid infos

theorem Call.Profile.concat {es : List Event} {i : ℕ} {call : Call} {uid : String} {infos : Infos}
    (h : call.Profile es i uid infos) (e : Event) : call.Profile (es ++ [e]) i uid infos := by
  obtain ⟨imageURL, hmem, hinfos⟩ := h
  exact ⟨imageURL, List.mem_append_left _ hmem, hinfos⟩

theorem LaterFailed.concat {es : List Event} {i : ℕ} {error : SwiftError} (h : LaterFailed es i error) (e : Event) :
    LaterFailed (es ++ [e]) i error :=
  h.imp (List.mem_append_left _) (Or.imp (List.mem_append_left _) (List.mem_append_left _))

/-- Later events and a store that agrees on the call's own document change nothing. -/
theorem Call.Stored.keep {users users' : String → Option Infos} {es : List Event} {i : ℕ} {call : Call}
    (h : call.Stored users es i) (e : Event)
    (husers : ∀ uid, call.createdUid = some uid → users' uid = users uid) :
    call.Stored users' (es ++ [e]) i := by
  intro uid huid
  have hstored := h uid huid
  rw [husers uid huid]
  split at hstored
  · exact ⟨hstored.1, hstored.2.1, hstored.2.2.concat e⟩
  · exact hstored
  · rcases hstored with ⟨⟨error, hcompletions, hlater⟩, hnone⟩ | ⟨hdone, hset, infos, hinfos, hprofile⟩
    · exact .inl ⟨⟨error, hcompletions, hlater.concat e⟩, hnone⟩
    · exact .inr ⟨hdone, List.mem_append_left _ hset, infos, hinfos, hprofile.concat e⟩

section
variable {currentUser : Option String} {es : List Event} {w w' : World} {i : ℕ}

/-! ### Accounts -/

theorem Call.Made.mono {accounts accounts' : List Account} {es : List Event} {call : Call}
    (h : call.Made accounts es i) (hsub : accounts ⊆ accounts') (e : Event) : call.Made accounts' (es ++ [e]) i where
  created uid huid := by
    obtain ⟨hmem, email, hemail, haccount⟩ := h.created uid huid
    exact ⟨List.mem_append_left _ hmem, email, hemail, hsub haccount⟩
  requested := h.requested
  failed hended hnone := by
    obtain ⟨error, hcompletions, hmem⟩ := h.failed hended hnone
    exact ⟨error, hcompletions, List.mem_append_left _ hmem⟩

/-- A request past `createUser`, or the end of the chain, adds nothing. -/
theorem Call.Made.advance {accounts : List Account} {call call' : Call} (h : call.Made accounts es i)
    (hcaptured : call'.captured = call.captured) (hcreated : call'.createdUid = call.createdUid)
    (hrequested : ∀ email password, call'.awaiting ≠ some (.createUser email password))
    (hfailed : call'.awaiting = none → call.createdUid = none →
      ∃ error, call'.completions = [some error] ∧ .createUserCallback i (.error error) ∈ es) :
    call'.Made accounts es i where
  created uid huid := by
    rw [hcaptured]
    exact h.created uid (hcreated ▸ huid)
  requested email password hawaiting := absurd hawaiting (hrequested email password)
  failed hended hnone := hfailed hended (hcreated ▸ hnone)

/-- The failing callback of a call is that of the request it waits for. -/
theorem failed_event {e : Event} {error : SwiftError} (hstep : step w e = some w')
    (hout : e.outcome = some (i, some error)) :
    (e = .createUserCallback i (.error error) ∧ ∃ email password, w.awaiting i = some (.createUser email password)) ∨
      (∀ email password, w.awaiting i ≠ some (.createUser email password)) ∧ LaterFailed [e] i error := by
  cases e with
  | createUserCallback j result =>
    obtain ⟨email, password, hawaiting, _⟩ := step_createUserCallback hstep
    cases result with
    | error error' =>
      cases hout
      exact .inl ⟨rfl, email, password, hawaiting⟩
    | ok uid => cases hout
  | putDataCallback j error' =>
    obtain ⟨imageData, hawaiting, _⟩ := step_putDataCallback hstep
    cases hout
    exact .inr ⟨by simp [hawaiting], .inl (List.mem_singleton_self _)⟩
  | downloadURLCallback j result =>
    obtain ⟨hawaiting, _⟩ := step_downloadURLCallback hstep
    cases result with
    | error error' =>
      cases hout
      exact .inr ⟨by simp [hawaiting], .inr (.inl (List.mem_singleton_self _))⟩
    | ok imageURL => cases hout
  | setDataCallback j error' =>
    obtain ⟨userID, dataToBeAdded, hawaiting, _⟩ := step_setDataCallback hstep
    cases hout
    exact .inr ⟨by simp [hawaiting], .inr (.inr (List.mem_singleton_self _))⟩
  | _ => cases hout

/-- A call without an account has not got past `createUser`. -/
theorem Sessions.of_not_created {request : Request} {call : Call} (h : Sessions currentUser es w)
    (hawaiting : w.awaiting i = some request) (hcall : w.calls[i]? = some call) (hnone : call.createdUid = none) :
    ∃ email password, request = .createUser email password := by
  obtain ⟨hrequest, hstaged⟩ := h.entry hawaiting hcall
  cases request with
  | createUser email password => exact ⟨email, password, rfl⟩
  | putData _ | downloadURL | setData _ _ => simp [Call.Staged, hrequest, hnone] at hstaged

theorem step_made {e : Event} (hstep : step w e = some w') (hsessions : Sessions currentUser es w)
    (hsilent : ∀ call ∈ w.calls, call.awaiting.isSome → call.completions = [])
    (h : All (fun i call => call.Made w.accounts es i) w.calls) :
    All (fun i call => call.Made w'.accounts (es ++ [e]) i) w'.calls := by
  have hkeep : All (fun i call => call.Made w.accounts (es ++ [e]) i) w.calls :=
    h.mono fun _ _ hmade => hmade.mono (List.Subset.refl _) e
  cases step_effect hstep with
  | screenOnly screen hout => exact hkeep
  | pressed screen hemail =>
    refine hkeep.concat ⟨fun _ huid => ?_, fun email password hawaiting => ?_, by simp [Call.issue]⟩
    · cases huid
    · simp only [Call.issue, Option.some.injEq, Request.createUser.injEq] at hawaiting
      rw [← hawaiting.1]
      exact hemail
  | @failed _ i _ error hawaiting hout =>
    refine hkeep.modify fun call hcall hmade => hmade.advance rfl rfl (by simp [Call.complete]) fun _ hnone => ?_
    obtain ⟨email, password, rfl⟩ := hsessions.of_not_created hawaiting hcall hnone
    have hsilent' := hsilent call (List.mem_of_getElem? hcall) (by simp [awaiting_of_entry hawaiting hcall])
    refine ⟨error, by rw [Call.complete, hsilent']; rfl, ?_⟩
    rcases failed_event hstep hout with ⟨rfl, _⟩ | ⟨hnot, _⟩
    · exact List.mem_append_right _ (List.mem_singleton_self _)
    · exact absurd hawaiting (hnot email password)
  | @accountCreated i uid email _ hawaiting hcan =>
    have hmono := h.mono fun _ _ hmade => hmade.mono (List.subset_append_left w.accounts [⟨uid, email⟩])
      (.createUserCallback i (.ok uid))
    refine hmono.modify fun call hcall hmade => ⟨fun uid' huid => ?_, by simp [Call.issue], by simp [Call.issue]⟩
    obtain rfl : uid = uid' := by simpa [Call.issue] using huid
    exact ⟨List.mem_append_right _ (List.mem_singleton_self _), _,
      hmade.requested _ _ (awaiting_of_entry hawaiting hcall), List.mem_append_right _ (List.mem_singleton_self _)⟩
  | imageSaved hawaiting =>
    exact hkeep.modify fun call hcall hmade => hmade.advance rfl rfl (by simp [Call.issue]) (by simp [Call.issue])
  | located hawaiting =>
    exact hkeep.modify fun call hcall hmade => hmade.advance rfl rfl (by simp [Call.issue]) (by simp [Call.issue])
  | userInfoSaved hawaiting =>
    refine hkeep.modify fun call hcall hmade => hmade.advance rfl rfl (by simp [Call.complete]) fun _ hnone => ?_
    obtain ⟨_, _, hrequest⟩ := hsessions.of_not_created hawaiting hcall hnone
    cases hrequest

/-- A call keeps the account it made. -/
theorem step_created {e : Event} {call : Call} {uid : String} (hstep : step w e = some w')
    (hsessions : Sessions currentUser es w) (hcall : w.calls[i]? = some call)
    (huid : call.createdUid = some uid) : ∃ call', w'.calls[i]? = some call' ∧ call'.createdUid = some uid := by
  have hmodify : ∀ {j : ℕ} {f : Call → Call}, (i = j → (f call).createdUid = some uid) →
      ∃ call', (w.calls.modify j f)[i]? = some call' ∧ call'.createdUid = some uid :=
    fun hf => CallTable.exists_modify_of hcall hf fun _ => huid
  cases step_effect hstep with
  | screenOnly => exact ⟨call, hcall, huid⟩
  | pressed => exact ⟨call, CallTable.getElem?_concat_of hcall, huid⟩
  | failed => exact hmodify fun _ => huid
  | accountCreated hawaiting hcan =>
    refine hmodify fun hj => ?_
    obtain ⟨hrequest, hstaged⟩ := hsessions.entry hawaiting (hj ▸ hcall)
    simp only [Call.Staged, hrequest, huid] at hstaged
    cases hstaged.1
  | imageSaved => exact hmodify fun _ => huid
  | located => exact hmodify fun _ => huid
  | userInfoSaved => exact hmodify fun _ => huid

/-- Every account was there at the start or was made by a call. -/
theorem step_accounts {accounts : List Account} {e : Event} (hstep : step w e = some w')
    (hsessions : Sessions currentUser es w) (h : ∀ account ∈ w.accounts, account ∈ accounts ∨
      ∃ (i : ℕ) (call : Call), w.calls[i]? = some call ∧ call.createdUid = some account.uid) :
    ∀ account ∈ w'.accounts, account ∈ accounts ∨
      ∃ (i : ℕ) (call : Call), w'.calls[i]? = some call ∧ call.createdUid = some account.uid := by
  have hkeep : ∀ account ∈ w.accounts, account ∈ accounts ∨
      ∃ (i : ℕ) (call : Call), w'.calls[i]? = some call ∧ call.createdUid = some account.uid := by
    intro account hmem
    refine (h account hmem).imp id ?_
    rintro ⟨i, call, hcall, huid⟩
    exact ⟨i, step_created hstep hsessions hcall huid⟩
  cases step_effect hstep with
  | accountCreated hawaiting hcan =>
    intro account hmem
    rcases List.mem_append.mp hmem with hmem | hmem
    · exact hkeep account hmem
    · obtain ⟨call, hcall, _⟩ := awaiting_eq_some.mp hawaiting
      rw [List.mem_singleton.mp hmem]
      exact .inr ⟨_, _, CallTable.getElem?_modify_eq_some.mpr (.inr ⟨rfl, call, hcall, rfl⟩), rfl⟩
  | screenOnly => exact hkeep
  | pressed => exact hkeep
  | failed => exact hkeep
  | imageSaved => exact hkeep
  | located => exact hkeep
  | userInfoSaved => exact hkeep

/-! ### Profiles -/

/-- No profile is stored while a call waits. -/
theorem Call.Stored.users_eq_none {users : String → Option Infos} {call : Call} {uid : String} {request : Request}
    (h : call.Stored users es i) (huid : call.createdUid = some uid) (hrequest : call.awaiting = some request) :
    users uid = none := by
  have hstored := h uid huid
  rw [hrequest] at hstored
  cases request with
  | setData userID dataToBeAdded => exact hstored.1
  | _ => exact hstored

/-- As long as every call writes its own document, the documents follow the calls. -/
theorem step_stored {e : Event} (hstep : step w e = some w') (hsessions : Sessions currentUser es w)
    (hsilent : ∀ call ∈ w.calls, call.awaiting.isSome → call.completions = [])
    (hown : InOwnSession (es ++ [e])) (h : All (fun i call => call.Stored w.users es i) w.calls) :
    All (fun i call => call.Stored w'.users (es ++ [e]) i) w'.calls := by
  have hkeep : All (fun i call => call.Stored w.users (es ++ [e]) i) w.calls :=
    h.mono fun _ _ hstored => hstored.keep e fun _ _ => rfl
  have hempty : ∀ {i : ℕ} {request : Request} {call : Call}, w.awaiting i = some request →
      w.calls[i]? = some call → call.completions = [] := fun hawaiting hcall =>
    hsilent _ (List.mem_of_getElem? hcall) (by simp [awaiting_of_entry hawaiting hcall])
  cases step_effect hstep with
  | screenOnly => exact hkeep
  | pressed => exact hkeep.concat fun uid huid => by cases huid
  | @failed _ i _ error hawaiting hout =>
    refine hkeep.modify fun call hcall hstored uid (huid : call.createdUid = some uid) => .inl ⟨⟨error, ?_, ?_⟩, ?_⟩
    · rw [Call.complete, hempty hawaiting hcall]
      rfl
    · rcases failed_event hstep hout with ⟨_, email, password, hrequest⟩ | ⟨_, hlater⟩
      · obtain ⟨hrequest', hstaged⟩ := hsessions.entry hrequest hcall
        simp [Call.Staged, hrequest', huid] at hstaged
      · exact hlater.imp (List.mem_append_right _) (Or.imp (List.mem_append_right _) (List.mem_append_right _))
    · exact hstored.users_eq_none huid (awaiting_of_entry hawaiting hcall)
  | accountCreated hawaiting hcan =>
    refine hkeep.modify fun call hcall hstored uid huid => ?_
    obtain rfl : _ = uid := by simpa [Call.issue] using huid
    exact Option.isNone_iff_eq_none.mp hcan.2
  | imageSaved hawaiting =>
    exact hkeep.modify fun call hcall hstored uid huid =>
      hstored.users_eq_none huid (awaiting_of_entry hawaiting hcall)
  | @located i imageURL hawaiting =>
    refine hkeep.modify fun call hcall hstored uid (huid : call.createdUid = some uid) => ?_
    have hrequest := awaiting_of_entry hawaiting hcall
    have hcurrent := (hsessions.own_iff hcall (by simp [huid])).mpr (inOwnSession_concat_downloadURL.mp hown).2
    obtain rfl : uid = w.currentUser.getD "" := Option.some.inj (huid.symm.trans hcurrent)
    exact ⟨hstored.users_eq_none huid hrequest, rfl, imageURL,
      List.mem_append_right _ (List.mem_singleton_self _), rfl⟩
  | @userInfoSaved i userID dataToBeAdded hawaiting =>
    obtain ⟨call₀, hcall₀, hrequest⟩ := awaiting_eq_some.mp hawaiting
    have hcreated := hsessions.staged call₀ (List.mem_of_getElem? hcall₀)
    simp only [Call.Staged, hrequest] at hcreated
    obtain ⟨uid₀, huid₀⟩ := Option.isSome_iff_exists.mp hcreated
    have hstored₀ := h i call₀ hcall₀ uid₀ huid₀
    rw [hrequest] at hstored₀
    obtain ⟨_, rfl, hprofile⟩ := hstored₀
    refine h.modify_of (fun j call hj hcall hstored => hstored.keep _ fun uid huid => ?_)
      fun call hcall _ uid huid => ?_
    · refine Function.update_of_ne ?_ _ _
      rintro rfl
      exact hj (hsessions.distinct j i call call₀ _ hcall hcall₀ huid huid₀)
    · rw [hcall₀] at hcall
      cases hcall
      obtain rfl : userID = uid := Option.some.inj (huid₀.symm.trans huid)
      refine .inr ⟨?_, List.mem_append_right _ (List.mem_singleton_self _), dataToBeAdded, Function.update_self ..,
        hprofile.concat _⟩
      rw [Call.complete, hempty hawaiting hcall₀]
      rfl

end

/-! ### Runs -/

section runs
variable {accounts : List Account} {currentUser : Option String} {users : String → Option Infos}
  {es : List Event} {w : World}

/-- A call that waits has told its completion nothing. -/
theorem run_silent (hrun : EventRun.run step (opened accounts currentUser users) es = some w) :
    ∀ call ∈ w.calls, call.awaiting.isSome → call.completions = [] := by
  intro call hmem
  obtain ⟨i, hcall⟩ := List.mem_iff_getElem?.mp hmem
  exact (run_follows hrun i call hcall).answer.1

theorem run_made (hrun : EventRun.run step (opened accounts currentUser users) es = some w) :
    All (fun i call => call.Made w.accounts es i) w.calls :=
  EventRun.run_induction (P := fun es w => All (fun i call => call.Made w.accounts es i) w.calls) CallTable.all_nil
    (fun _ _ _ _ hes h hstep => step_made hstep (run_sessions hes) (run_silent hes) h) hrun

theorem run_accounts (hrun : EventRun.run step (opened accounts currentUser users) es = some w) :
    ∀ account ∈ w.accounts, account ∈ accounts ∨
      ∃ (i : ℕ) (call : Call), w.calls[i]? = some call ∧ call.createdUid = some account.uid :=
  EventRun.run_induction (P := fun _ w => ∀ account ∈ w.accounts, account ∈ accounts ∨
      ∃ (i : ℕ) (call : Call), w.calls[i]? = some call ∧ call.createdUid = some account.uid)
    (fun _ hmem => .inl hmem) (fun _ _ _ _ hes h hstep => step_accounts hstep (run_sessions hes) h) hrun

theorem run_stored (hrun : EventRun.run step (opened accounts currentUser users) es = some w)
    (hown : InOwnSession es) : All (fun i call => call.Stored w.users es i) w.calls := by
  refine EventRun.run_induction
    (P := fun es w => InOwnSession es → All (fun i call => call.Stored w.users es i) w.calls)
    (fun _ => CallTable.all_nil) ?_ hrun hown
  intro es w e w' hes h hstep hown
  exact step_stored hstep (run_sessions hes) (run_silent hes) hown (h (along_concat.mp hown).1)

/-- **What a registration leaves behind.** Every account that was not there at the start was made by one of
the calls. Of a call whose chain has ended: either its `createUser` failed, the completion got this error and there
is no account of this call; or its account is there, and its email cannot be registered again. In the second
case, provided every call wrote its own document, either a later step failed, the completion got the error of this
step and the account has no document; or the completion got success and the document carries the captured name and
the URL of the call's own upload. -/
theorem registration_leaves (hrun : EventRun.run step (opened accounts currentUser users) es = some w) :
    (∀ account ∈ w.accounts, account ∈ accounts ∨
      ∃ (i : ℕ) (call : Call), w.calls[i]? = some call ∧ call.createdUid = some account.uid) ∧
    ∀ (i : ℕ) (call : Call), w.calls[i]? = some call → call.awaiting = none →
      match call.createdUid with
      | none => ∃ error, .createUserCallback i (.error error) ∈ es ∧ call.completions = [some error]
      | some uid => .createUserCallback i (.ok uid) ∈ es ∧
          (∃ email, call.captured.emailAdress = some email ∧ ⟨uid, email⟩ ∈ w.accounts ∧
            ∀ uid', ¬ w.CanCreate uid' email) ∧
          (InOwnSession es →
            (∃ error, (.putDataCallback i (some error) ∈ es ∨ .downloadURLCallback i (.error error) ∈ es ∨
              .setDataCallback i (some error) ∈ es) ∧ call.completions = [some error]) ∧ w.users uid = none ∨
            call.completions = [none] ∧ .setDataCallback i none ∈ es ∧
              ∃ imageURL, .downloadURLCallback i (.ok imageURL) ∈ es ∧
                w.users uid = some (call.captured.dataToBeAdded imageURL uid)) := by
  refine ⟨run_accounts hrun, fun i call hcall hended => ?_⟩
  have hmade := run_made hrun i call hcall
  split
  · rename_i hnone
    obtain ⟨error, hcompletions, hmem⟩ := hmade.failed hended hnone
    exact ⟨error, hmem, hcompletions⟩
  · rename_i uid huid
    obtain ⟨hcreated, email, hemail, hmem⟩ := hmade.created uid huid
    refine ⟨hcreated, ⟨email, hemail, hmem, fun uid' hcan => (hcan.1 _ hmem).2 rfl⟩, fun hown => ?_⟩
    have hstored := run_stored hrun hown i call hcall uid huid
    rw [hended] at hstored
    rcases hstored with ⟨⟨error, hcompletions, hlater⟩, hnone⟩ | ⟨hdone, hset, infos, hinfos, imageURL, hlocated, rfl⟩
    · exact .inl ⟨⟨error, hlater, hcompletions⟩, hnone⟩
    · exact .inr ⟨hdone, hset, imageURL, hlocated, hinfos⟩

end runs

/-- The registration of `retriedRegistration` whose upload fails leaves an account without a document and a blocked
email, the other one its profile. -/
theorem retriedRegistration_leaves : ∃ w,
    EventRun.run step (opened [] none fun _ => none) retriedRegistration = some w ∧ w.users "uid0" = none ∧
      ¬ w.CanCreate "uid2" "a@b.c" ∧ w.users "uid1" = some (RegisterViewModel.dataToBeAdded
        ⟨some "b@b.c", some "Ada", some "secret"⟩ "https://host/image" "uid1") := by
  have hrun : EventRun.run step (opened [] none fun _ => none) retriedRegistration = some _ := rfl
  have hown : InOwnSession retriedRegistration := by decide
  obtain ⟨_, hleaves⟩ := registration_leaves hrun
  obtain ⟨_, ⟨email, hemail, _, hblocked⟩, hfailed⟩ := hleaves 0 _ rfl rfl
  obtain ⟨_, _, hsucceeded⟩ := hleaves 1 _ rfl rfl
  obtain rfl : "a@b.c" = email := Option.some.inj hemail
  refine ⟨_, hrun, ?_, hblocked "uid2", ?_⟩
  · rcases hfailed hown with ⟨_, hnone⟩ | ⟨_, hset, _⟩
    · exact hnone
    · simp [retriedRegistration] at hset
  · rcases hsucceeded hown with ⟨_, hnone⟩ | ⟨_, _, imageURL, hlocated, hdocument⟩
    · cases hnone
    · obtain rfl : imageURL = "https://host/image" := by simpa [retriedRegistration] using hlocated
      exact hdocument

/-- One registration whose photo upload fails. -/
def failedUpload : List Event :=
  [.editingChanged .email "a@b.c", .editingChanged .nameSurname "Ada", .editingChanged .password "secret",
    .registerButtonPressed, .createUserCallback 0 (.ok "uid0"), .putDataCallback 0 (some ⟨"offline"⟩)]

/-- It is not all or nothing: the account of `failedUpload` has no document, and the error left it behind. -/
theorem registration_not_all_or_nothing : ¬ ∀ es w,
    EventRun.run step (opened [] none fun _ => none) es = some w → (∀ call ∈ w.calls, call.awaiting = none) →
      (∀ account ∈ w.accounts, (w.users account.uid).isSome) ∧
      ∀ call ∈ w.calls, (∃ error, call.completions = [some error]) → call.createdUid = none := by
  intro h
  obtain ⟨hdocument, _⟩ := h failedUpload _ rfl (fun call hmem => by rw [List.mem_singleton.mp hmem]; rfl)
  have hnone := hdocument ⟨"uid0", "a@b.c"⟩ (List.mem_singleton_self _)
  cases hnone

end CloneProjects.Tinder.Register
