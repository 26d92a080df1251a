import CloneProjects.Insta.Progress

/-!
# What a registration leaves behind

No account is taken back: a registration that fails after `createUser` keeps its account. `Registered` ties the
accounts to the presses that made them, and `Call.Stored` the documents to the callbacks of their call.
-/

namespace CloneProjects.Insta

open CallTable (All Distinct)
open EventRun (run)

/-- The read of a stored user gives back what was written. -/
theorem user_init_willBeAddedData (userName registeredUserID profileImageURL : String) :
    User.init (willBeAddedData userName registeredUserID profileImageURL) =
      ⟨registeredUserID, userName, profileImageURL⟩ := rfl

/-- A call was made by a press, for the texts of that moment. -/
def Call.PressedAt (addphotobuttonimage : UIImage) (start : World) (es : List Event) (i : ℕ) (call : Call) : Prop :=
  ∃ pre m post, es = pre ++ .registerButtonClicked :: post ∧ run (step addphotobuttonimage) start pre = some m ∧
    m.calls.length = i ∧ call.emailAdress = m.screen.emailTextField ∧ call.userName = m.screen.userNameTextField

/-- Every account was there at the start or was made by one call, under its email; a uid belongs to one call. -/
structure Registered (accounts : List Account) (w : World) : Prop where
  made : ∀ account ∈ w.accounts, account ∈ accounts ∨ ∃ (i : ℕ) (call : Call), w.calls[i]? = some call ∧
    call.registeredUserID = some account.uid ∧ call.emailAdress = account.email
  account : ∀ call ∈ w.calls, ∀ uid, call.registeredUserID = some uid → ∃ account ∈ w.accounts, account.uid = uid
  distinct : Distinct Call.registeredUserID w.calls

/-- The document of a call's account: what the call wrote once its `setData` has succeeded, nothing before. -/
def Call.Stored (users : String → Option Infos) (es : List Event) (i : ℕ) (call : Call) : Prop :=
  ∀ uid, call.registeredUserID = some uid →
    (.setDataCallback i none ∉ es ∧ users uid = none) ∨
    (.setDataCallback i none ∈ es ∧ ∃ result, .downloadURLCallback i result ∈ es ∧
      users uid = some (willBeAddedData call.userName uid (absoluteString result)))

section
variable {addphotobuttonimage : UIImage} {accounts : List Account} {users : String → Option Infos} {w w' : World}
  {e : Event} {es : List Event} {i : ℕ} {call : Call}

/-! ### The press a call was made by -/

theorem Call.PressedAt.concat {start : World} (h : call.PressedAt addphotobuttonimage start es i) (e : Event) :
    call.PressedAt addphotobuttonimage start (es ++ [e]) i := by
  obtain ⟨pre, m, post, rfl, hpre, hcall⟩ := h
  exact ⟨pre, m, post ++ [e], by simp, hpre, hcall⟩

theorem run_pressedAt
    (hrun : run (step addphotobuttonimage) (opened addphotobuttonimage accounts users) es = some w) :
    All (fun i call =>
      call.PressedAt addphotobuttonimage (opened addphotobuttonimage accounts users) es i) w.calls := by
  refine EventRun.run_induction (P := fun es w => All (fun i call =>
    call.PressedAt addphotobuttonimage (opened addphotobuttonimage accounts users) es i) w.calls)
    CallTable.all_nil (fun es w e w' hes h hstep => ?_) hrun
  have hkeep := h.mono fun i call hcall => hcall.concat e
  cases step_effect hstep with
  | edited | picked => exact hkeep
  | pressed => exact hkeep.concat ⟨es, w, [], by simp, hes, rfl, rfl, rfl⟩
  | refused | accountCreated | uploadFailed | imageSaved | located | saveFailed | saved | hudGone =>
    exact hkeep.modify fun _ _ hcall => hcall

/-! ### Accounts -/

/-- A callback that leaves the uid and the email alone. -/
theorem Registered.modify {f : Call → Call} (h : Registered accounts w) (haccounts : w'.accounts = w.accounts)
    (hcalls : w'.calls = w.calls.modify i f)
    (hf : ∀ call, (f call).registeredUserID = call.registeredUserID ∧ (f call).emailAdress = call.emailAdress) :
    Registered accounts w' where
  made account hmem := by
    rw [haccounts] at hmem
    refine (h.made account hmem).imp id ?_
    rintro ⟨j, call, hcall, huid, hemail⟩
    rw [hcalls]
    exact ⟨j, CallTable.exists_modify_of hcall
      (fun _ => ⟨(hf call).1.trans huid, (hf call).2.trans hemail⟩) fun _ => ⟨huid, hemail⟩⟩
  account call hmem uid huid := by
    rw [hcalls] at hmem
    obtain ⟨j, hcall⟩ := List.mem_iff_getElem?.mp hmem
    rw [haccounts]
    rcases CallTable.getElem?_modify_eq_some.mp hcall with ⟨_, hcall⟩ | ⟨_, call₀, hcall₀, rfl⟩
    · exact h.account call (List.mem_of_getElem? hcall) uid huid
    · exact h.account call₀ (List.mem_of_getElem? hcall₀) uid ((hf call₀).1 ▸ huid)
  distinct := by
    rw [hcalls]
    exact h.distinct.modify fun call => (hf call).1

/-- A new account belongs to its call alone. -/
theorem Registered.accountCreated {uid email : String} {imageData : Data} (h : Registered accounts w)
    (hcall : w.calls[i]? = some call) (hemail : call.emailAdress = email) (hnone : call.registeredUserID = none)
    (hcan : w.CanCreate uid email) : Registered accounts { w with
      accounts := w.accounts ++ [⟨uid, email⟩]
      calls := w.calls.modify i (Call.accountCreated uid imageData) } where
  made account hmem := by
    rcases List.mem_append.mp hmem with hmem | hmem
    · refine (h.made account hmem).imp id ?_
      rintro ⟨j, call', hcall', huid, hemail'⟩
      have hj : j ≠ i := by
        rintro rfl
        rw [hcall] at hcall'
        cases hcall'
        rw [hnone] at huid
        cases huid
      exact ⟨j, call', CallTable.getElem?_modify_eq_some.mpr (.inl ⟨hj, hcall'⟩), huid, hemail'⟩
    · rw [List.mem_singleton.mp hmem]
      exact .inr ⟨i, _, CallTable.getElem?_modify_eq_some.mpr (.inr ⟨rfl, call, hcall, rfl⟩), rfl, hemail⟩
  account call' hmem uid' huid' := by
    obtain ⟨j, hcall'⟩ := List.mem_iff_getElem?.mp hmem
    rcases CallTable.getElem?_modify_eq_some.mp hcall' with ⟨_, hcall'⟩ | ⟨_, call₀, _, rfl⟩
    · obtain ⟨account, haccount, heq⟩ := h.account call' (List.mem_of_getElem? hcall') uid' huid'
      exact ⟨account, List.mem_append_left _ haccount, heq⟩
    · exact ⟨⟨uid, email⟩, List.mem_append_right _ (List.mem_singleton_self _), Option.some.inj huid'⟩
  distinct := by
    refine h.distinct.modify_new (k := uid) (fun call' hmem huid => ?_) fun _ => rfl
    obtain ⟨account, haccount, heq⟩ := h.account call' hmem uid huid
    exact (hcan.1 account haccount).1 heq

theorem step_registered (hprogress : All (fun i call => Progress i call (answers i es)) w.calls)
    (h : Registered accounts w) (hstep : step addphotobuttonimage w e = some w') : Registered accounts w' := by
  cases step_effect hstep with
  | edited | picked => exact ⟨h.made, h.account, h.distinct⟩
  | pressed =>
    refine ⟨fun account hmem => ?_, fun call hmem uid huid => ?_, h.distinct.concat rfl⟩
    · refine (h.made account hmem).imp id ?_
      rintro ⟨i, call, hcall, hmade⟩
      exact ⟨i, call, CallTable.getElem?_concat_of hcall, hmade⟩
    · rcases List.mem_append.mp hmem with hmem | hmem
      · exact h.account call hmem uid huid
      · rw [List.mem_singleton.mp hmem] at huid
        cases huid
  | accountCreated hawaiting hcan =>
    obtain ⟨call, hcall, hrequest⟩ := awaiting_eq_some.mp hawaiting
    obtain ⟨_, hstands⟩ := (hprogress _ call hcall).of_createUser hrequest
    have hcreate := hstands.awaiting
    rw [hrequest, Option.some.injEq, Request.createUser.injEq] at hcreate
    exact h.accountCreated hcall hcreate.1.symm hstands.uid hcan
  | refused | uploadFailed | imageSaved | located | saveFailed | saved | hudGone =>
    exact h.modify rfl rfl fun _ => ⟨rfl, rfl⟩

theorem run_registered
    (hrun : run (step addphotobuttonimage) (opened addphotobuttonimage accounts users) es = some w) :
    Registered accounts w := by
  refine EventRun.run_induction (P := fun _ w => Registered accounts w) ⟨fun _ hmem => .inl hmem, ?_, ?_⟩
    (fun _ _ _ _ hes h hstep => step_registered (run_progress hes) h hstep) hrun
  · simp [opened]
  · exact CallTable.distinct_nil

/-! ### Documents -/

/-- Later events but the call's own success, and a store that agrees on its document, change nothing. -/
theorem Call.Stored.keep {users' : String → Option Infos} (h : call.Stored users es i)
    (he : e ≠ .setDataCallback i none) (husers : ∀ uid, call.registeredUserID = some uid → users' uid = users uid) :
    call.Stored users' (es ++ [e]) i := by
  intro uid huid
  rw [husers uid huid]
  rcases h uid huid with ⟨hwaiting, hnone⟩ | ⟨hsaved, result, hresult, hdocument⟩
  · refine .inl ⟨fun hmem => ?_, hnone⟩
    rcases List.mem_append.mp hmem with hmem | hmem
    · exact hwaiting hmem
    · exact he (List.mem_singleton.mp hmem).symm
  · exact .inr ⟨List.mem_append_left _ hsaved, result, List.mem_append_left _ hresult, hdocument⟩

theorem step_stored (hprogress : All (fun i call => Progress i call (answers i es)) w.calls)
    (hregistered : Registered accounts w) (h : All (fun i call => call.Stored w.users es i) w.calls)
    (hstep : step addphotobuttonimage w e = some w') :
    All (fun i call => call.Stored w'.users (es ++ [e]) i) w'.calls := by
  have hkeep : (∀ i, e ≠ .setDataCallback i none) → All (fun i call => call.Stored w.users (es ++ [e]) i) w.calls :=
    fun he => h.mono fun i call hstored => hstored.keep (he i) fun _ _ => rfl
  cases step_effect hstep with
  | edited | picked => exact hkeep nofun
  | pressed => exact (hkeep nofun).concat fun uid huid => by cases huid
  | refused | uploadFailed | imageSaved | located | saveFailed | hudGone =>
    exact (hkeep nofun).modify fun _ _ hstored => hstored
  | @accountCreated i uid email password hawaiting hcan =>
    refine (hkeep nofun).modify fun call hcall _ uid' huid' => .inl ⟨fun hmem => ?_, ?_⟩
    · obtain ⟨hnone, _⟩ := (hprogress i call hcall).of_createUser (awaiting_of_entry hawaiting hcall)
      rcases List.mem_append.mp hmem with hmem | hmem
      · rw [← mem_answers rfl, hnone] at hmem
        cases hmem
      · cases List.mem_singleton.mp hmem
    · obtain rfl : uid = uid' := Option.some.inj huid'
      exact Option.isNone_iff_eq_none.mp hcan.2
  | @saved i document data hawaiting =>
    obtain ⟨call₀, hcall₀, hrequest⟩ := awaiting_eq_some.mp hawaiting
    obtain ⟨result, hanswers, rfl, hstands⟩ := (hprogress i call₀ hcall₀).of_setData hrequest
    refine h.modify_of (fun j call hj hcall hstored => ?_) fun call hcall _ uid huid => ?_
    · refine hstored.keep (by simpa using hj.symm) fun uid huid => Function.update_of_ne ?_ _ _
      rintro rfl
      exact hj (hregistered.distinct j i call call₀ _ hcall hcall₀ huid hstands.uid)
    · rw [hcall₀] at hcall
      cases hcall
      obtain rfl : document = uid := Option.some.inj (hstands.uid.symm.trans huid)
      have hresult : .downloadURLCallback i result ∈ es := by
        rw [← mem_answers rfl, hanswers]
        simp
      exact .inr ⟨by simp, result, List.mem_append_left _ hresult, Function.update_self ..⟩

theorem run_stored
    (hrun : run (step addphotobuttonimage) (opened addphotobuttonimage accounts users) es = some w) :
    All (fun i call => call.Stored w.users es i) w.calls :=
  EventRun.run_induction (P := fun es w => All (fun i call => call.Stored w.users es i) w.calls) CallTable.all_nil
    (fun _ _ _ _ hes h hstep => step_stored (run_progress hes) (run_registered hes) h hstep) hrun

/-! ### What is left -/

/-- A call has the account that its own `createUser` brought. -/
theorem Progress.created {uid : String} (h : Progress i call (answers i es))
    (huid : call.registeredUserID = some uid) : .createUserCallback i (.ok uid) ∈ es := by
  rw [← mem_answers rfl]
  generalize answers i es = l at h
  cases h with
  | creating h | refused h =>
    rw [h.uid] at huid
    cases huid
  | uploading h | uploadFailed h | locating h | saving h | finished h =>
    obtain rfl := Option.some.inj (h.uid.symm.trans huid)
    exact List.mem_cons_self

/-- What a call with an account has left once its callbacks have fired, if its `downloadURL` did not fail: no
document after a failure, else its own. -/
theorem Progress.leaves {uid : String} (h : Progress i call (answers i es)) (hstored : call.Stored users es i)
    (hended : call.awaiting = none) (huid : call.registeredUserID = some uid)
    (hlocated : ∀ error, .downloadURLCallback i (.error error) ∉ es) :
    (∃ error, .putDataCallback i (some error) ∈ es ∨ .setDataCallback i (some error) ∈ es) ∧ users uid = none ∨
      ∃ url : URL, .putDataCallback i none ∈ es ∧ .downloadURLCallback i (.ok url) ∈ es ∧
        .setDataCallback i none ∈ es ∧ users uid = some (willBeAddedData call.userName uid url.absoluteString) := by
  have hmem : ∀ e : Event, e.call = some i → (e ∈ es ↔ e ∈ answers i es) := fun _ hcall => (mem_answers hcall).symm
  have hset : ∀ error, .setDataCallback i error ∈ es ↔ .setDataCallback i error ∈ answers i es := fun _ => hmem _ rfl
  have hunsaved : .setDataCallback i none ∉ es → users uid = none := by
    intro hnone
    rcases hstored uid huid with ⟨_, hempty⟩ | ⟨hsaved, _⟩
    · exact hempty
    · exact absurd hsaved hnone
  generalize answers i es = l at h hmem hset
  cases h with
  | creating h | uploading h | locating h | saving h =>
    rw [h.awaiting] at hended
    cases hended
  | refused h =>
    rw [h.uid] at huid
    cases huid
  | @uploadFailed uid' error h =>
    obtain rfl : uid' = uid := Option.some.inj (h.uid.symm.trans huid)
    refine .inl ⟨⟨error, .inl ((hmem _ rfl).mpr (by simp))⟩, hunsaved ?_⟩
    simp [hset]
  | @finished uid' result error h =>
    obtain rfl : uid' = uid := Option.some.inj (h.uid.symm.trans huid)
    cases error with
    | some error =>
      refine .inl ⟨⟨error, .inr ((hset _).mpr (by simp))⟩, hunsaved ?_⟩
      simp [hset]
    | none =>
      cases result with
      | error error => exact absurd ((hmem _ rfl).mpr (by simp)) (hlocated error)
      | ok url =>
        have hsaved : .setDataCallback i none ∈ es := (hset _).mpr (by simp)
        refine .inr ⟨url, (hmem _ rfl).mpr (by simp), (hmem _ rfl).mpr (by simp), hsaved, ?_⟩
        rcases hstored uid' huid with ⟨hwaiting, _⟩ | ⟨_, result, hresult, hdocument⟩
        · exact absurd hsaved hwaiting
        · obtain rfl : result = .ok url := by simpa using (hmem _ rfl).mp hresult
          exact hdocument

/-- **What a registration leaves behind.** In every reachable state with no callback pending, every account was there
at the start or was made by a press, under its email. If the `downloadURL` of that press did not fail, then either
its `putData` or its `setData` failed and the account has no document, or all four callbacks succeeded and the
document reads as the account's uid, the user name at the press and the non-empty URL of its own upload. -/
theorem accounts_after_registrations
    (hrun : run (step addphotobuttonimage) (opened addphotobuttonimage accounts users) es = some w)
    (hquiet : ∀ call ∈ w.calls, call.awaiting = none) :
    ∀ account ∈ w.accounts, account ∈ accounts ∨ ∃ pre m post, es = pre ++ .registerButtonClicked :: post ∧
      run (step addphotobuttonimage) (opened addphotobuttonimage accounts users) pre = some m ∧
      account.email = m.screen.emailTextField ∧ .createUserCallback m.calls.length (.ok account.uid) ∈ es ∧
      ((∀ error, .downloadURLCallback m.calls.length (.error error) ∉ es) →
        (∃ error, .putDataCallback m.calls.length (some error) ∈ es ∨
          .setDataCallback m.calls.length (some error) ∈ es) ∧ w.users account.uid = none ∨
        ∃ (url : URL) (userData : Infos), .putDataCallback m.calls.length none ∈ es ∧
          .downloadURLCallback m.calls.length (.ok url) ∈ es ∧ .setDataCallback m.calls.length none ∈ es ∧
          w.users account.uid = some userData ∧
          userData = willBeAddedData m.screen.userNameTextField account.uid url.absoluteString ∧
          User.init userData = ⟨account.uid, m.screen.userNameTextField, url.absoluteString⟩ ∧
          url.absoluteString ≠ "") := by
  intro account hmem
  refine ((run_registered hrun).made account hmem).imp id ?_
  rintro ⟨i, call, hcall, huid, hemail⟩
  obtain ⟨pre, m, post, hes, hpre, rfl, hemail', hname⟩ := run_pressedAt hrun i call hcall
  have hprogress := run_progress hrun _ call hcall
  refine ⟨pre, m, post, hes, hpre, hemail.symm.trans hemail', hprogress.created huid, fun hlocated => ?_⟩
  have hended := hquiet call (List.mem_of_getElem? hcall)
  refine (hprogress.leaves (run_stored hrun _ call hcall) hended huid hlocated).imp id ?_
  rintro ⟨url, hput, hdownload, hset, hdocument⟩
  rw [hname] at hdocument
  exact ⟨url, _, hput, hdownload, hset, hdocument, rfl, user_init_willBeAddedData _ _ _, url.nonempty⟩

end

/-- A registration that goes through leaves its document. -/
theorem registered_leaves : ∃ w userData,
    run (step ⟨"add", none⟩) (opened ⟨"add", none⟩ [] fun _ => none) registered = some w ∧
      w.users "uid0" = some userData ∧ (User.init userData).userID = "uid0" ∧
        (User.init userData).profileImageURL ≠ "" := by
  have hrun : run (step ⟨"add", none⟩) (opened ⟨"add", none⟩ [] fun _ => none) registered = some _ := rfl
  rcases accounts_after_registrations hrun (fun call hmem => by rw [List.mem_singleton.mp hmem]; rfl)
    ⟨"uid0", "a@b.c"⟩ (List.mem_singleton_self _) with hold | ⟨_, m, _, _, _, _, _, hleaves⟩
  · cases hold
  · rcases hleaves (by simp [registered, filledForm]) with ⟨⟨error, hfailed⟩, _⟩ |
      ⟨url, userData, _, _, _, hdocument, _, hread, hnonempty⟩
    · simp [registered, filledForm] at hfailed
    · refine ⟨_, userData, hrun, hdocument, by rw [hread], ?_⟩
      rw [hread]
      exact hnonempty

/-- One registration whose `putData` fails. -/
def failedUpload : List Event := filledForm ++ .registerButtonClicked ::
  [.createUserCallback 0 (.ok "uid0"), .putDataCallback 0 (some ⟨"offline"⟩)]

/-- Its account has no document. -/
theorem failed_upload_leaves_account : ¬ ∀ es w,
    run (step ⟨"add", none⟩) (opened ⟨"add", none⟩ [] fun _ => none) es = some w →
      (∀ call ∈ w.calls, call.awaiting = none) → ∀ account ∈ w.accounts, (w.users account.uid).isSome := by
  intro h
  have hdocument := h failedUpload _ rfl (fun call hmem => by rw [List.mem_singleton.mp hmem]; rfl)
    ⟨"uid0", "a@b.c"⟩ (List.mem_singleton_self _)
  cases hdocument

end CloneProjects.Insta
