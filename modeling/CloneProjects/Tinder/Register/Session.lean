import CloneProjects.Tinder.Register.Gate

/-!
# Whose document a registration writes

`userInfoSaveToFirebase` asks for the current user again, two round trips after the account was made. The
current user is the account of the last `createUser` that succeeded (`Sessions.signedIn`), so a call writes
its own document exactly when that was its own.
-/

namespace CloneProjects.Tinder.Register

open CallTable (All)
open EventRun (Along along_nil along_concat lastOf)

/-- The account an event makes, with the call it is made for. -/
def createdBy : Event → Option (ℕ × String)
  | .createUserCallback i (.ok uid) => some (i, uid)
  | _ => none

/-- Whenever a `downloadURL` succeeds for a call, the last account made until then is the call's own. -/
def InOwnSession (es : List Event) : Prop :=
  Along (fun pre e => ∀ i imageURL, e = .downloadURLCallback i (.ok imageURL) →
    ∃ uid, lastOf createdBy pre = some (i, uid)) es

instance (pre : List Event) (e : Event) : Decidable (∀ i imageURL, e = .downloadURLCallback i (.ok imageURL) →
    ∃ uid, lastOf createdBy pre = some (i, uid)) :=
  match e with
  | .downloadURLCallback i (.ok imageURL) =>
    decidable_of_iff ((lastOf createdBy pre).map Prod.fst = some i) (by simp [Option.map_eq_some_iff])
  | .downloadURLCallback _ (.error _) | .editingChanged _ _ | .didFinishPicking _ | .registerButtonPressed
  | .registerHudDelay | .createUserCallback _ _ | .putDataCallback _ _ | .setDataCallback _ _ => .isTrue (by simp)

instance (es : List Event) : Decidable (InOwnSession es) := inferInstanceAs (Decidable (Along _ es))

/-- The profile a call writes, if it does, is that of the account it made. -/
def Call.WritesOwn (call : Call) : Prop :=
  ∀ userID dataToBeAdded, .setData userID dataToBeAdded ∈ call.issued →
    call.createdUid = some userID ∧ dataToBeAdded "UserID" = some (.string userID)

/-- The request a call waits for tells whether its account exists and its profile was sent. -/
def Call.Staged (call : Call) : Prop :=
  match call.awaiting with
  | some (.createUser _ _) =>
    call.createdUid = none ∧ ∀ userID dataToBeAdded, .setData userID dataToBeAdded ∉ call.issued
  | some (.putData _) | some .downloadURL =>
    call.createdUid.isSome ∧ ∀ userID dataToBeAdded, .setData userID dataToBeAdded ∉ call.issued
  | some (.setData _ _) => call.createdUid.isSome
  | none => True

/-- The accounts of the calls after the events: made once each, and the last of them is signed in. -/
structure Sessions (currentUser : Option String) (es : List Event) (w : World) : Prop where
  signedIn : w.currentUser = ((lastOf createdBy es).map Prod.snd).or currentUser
  last : ∀ i uid, lastOf createdBy es = some (i, uid) →
    ∃ call, w.calls[i]? = some call ∧ call.createdUid = some uid
  some_created : ∀ call ∈ w.calls, call.createdUid.isSome → (lastOf createdBy es).isSome
  account : ∀ call ∈ w.calls, ∀ uid, call.createdUid = some uid → ∃ account ∈ w.accounts, account.uid = uid
  distinct : ∀ (i j : ℕ) (a b : Call) uid, w.calls[i]? = some a → w.calls[j]? = some b → a.createdUid = some uid →
    b.createdUid = some uid → i = j
  staged : ∀ call ∈ w.calls, call.Staged

section
variable {currentUser : Option String} {es : List Event} {w w' : World} {i : ℕ}

/-- A step that makes no account and gives no call a new uid keeps the bookkeeping. -/
theorem Sessions.keep {e : Event} (h : Sessions currentUser es w) (he : createdBy e = none)
    (hsigned : w'.currentUser = w.currentUser) (haccounts : w'.accounts = w.accounts)
    (hforth : ∀ (i : ℕ) call, w.calls[i]? = some call →
      ∃ call', w'.calls[i]? = some call' ∧ call'.createdUid = call.createdUid)
    (hback : ∀ (i : ℕ) call', w'.calls[i]? = some call' → call'.Staged ∧
      ((∃ call, w.calls[i]? = some call ∧ call'.createdUid = call.createdUid) ∨ call'.createdUid = none)) :
    Sessions currentUser (es ++ [e]) w' := by
  have hlast : lastOf createdBy (es ++ [e]) = lastOf createdBy es := by
    rw [EventRun.lastOf_concat, he, Option.none_or]
  have hold : ∀ (i : ℕ) (call' : Call) uid, w'.calls[i]? = some call' → call'.createdUid = some uid →
      ∃ call, w.calls[i]? = some call ∧ call.createdUid = some uid := by
    intro i call' uid hcall' huid
    rcases (hback i call' hcall').2 with ⟨call, hcall, heq⟩ | hnone
    · exact ⟨call, hcall, heq ▸ huid⟩
    · rw [hnone] at huid
      cases huid
  refine ⟨?_, ?_, ?_, ?_, ?_, ?_⟩
  · rw [hsigned, hlast]
    exact h.signedIn
  · intro i uid hi
    obtain ⟨call, hcall, huid⟩ := h.last i uid (hlast ▸ hi)
    obtain ⟨call', hcall', heq⟩ := hforth i call hcall
    exact ⟨call', hcall', heq.trans huid⟩
  · intro call' hmem huid
    obtain ⟨i, hcall'⟩ := List.mem_iff_getElem?.mp hmem
    obtain ⟨uid, huid⟩ := Option.isSome_iff_exists.mp huid
    obtain ⟨call, hcall, huid⟩ := hold i call' uid hcall' huid
    rw [hlast]
    exact h.some_created call (List.mem_of_getElem? hcall) (by simp [huid])
  · intro call' hmem uid huid
    obtain ⟨i, hcall'⟩ := List.mem_iff_getElem?.mp hmem
    obtain ⟨call, hcall, huid⟩ := hold i call' uid hcall' huid
    rw [haccounts]
    exact h.account call (List.mem_of_getElem? hcall) uid huid
  · intro i j a b uid ha hb hauid hbuid
    obtain ⟨a₀, ha₀, hauid⟩ := hold i a uid ha hauid
    obtain ⟨b₀, hb₀, hbuid⟩ := hold j b uid hb hbuid
    exact h.distinct i j a₀ b₀ uid ha₀ hb₀ hauid hbuid
  · intro call' hmem
    obtain ⟨i, hcall'⟩ := List.mem_iff_getElem?.mp hmem
    exact (hback i call' hcall').1

theorem Sessions.same {e : Event} (h : Sessions currentUser es w) (he : createdBy e = none)
    (hsigned : w'.currentUser = w.currentUser) (haccounts : w'.accounts = w.accounts)
    (hcalls : w'.calls = w.calls) : Sessions currentUser (es ++ [e]) w' := by
  refine h.keep he hsigned haccounts (fun j call hcall => ⟨call, hcalls ▸ hcall, rfl⟩) fun j call hcall => ?_
  rw [hcalls] at hcall
  exact ⟨h.staged call (List.mem_of_getElem? hcall), .inl ⟨call, hcall, rfl⟩⟩

/-- The same for a step that changes the entry of one call. -/
theorem Sessions.modify {e : Event} {f : Call → Call} (h : Sessions currentUser es w)
    (he : createdBy e = none) (hsigned : w'.currentUser = w.currentUser) (haccounts : w'.accounts = w.accounts)
    (hcalls : w'.calls = w.calls.modify i f)
    (hf : ∀ call, w.calls[i]? = some call → (f call).createdUid = call.createdUid ∧ (f call).Staged) :
    Sessions currentUser (es ++ [e]) w' := by
  refine h.keep he hsigned haccounts (fun j call hcall => ?_) fun j call' hcall' => ?_
  · rw [hcalls]
    exact CallTable.exists_modify_of hcall (fun hj => (hf call (hj ▸ hcall)).1) fun _ => rfl
  · rw [hcalls] at hcall'
    rcases CallTable.getElem?_modify_eq_some.mp hcall' with ⟨_, hcall⟩ | ⟨rfl, call, hcall, rfl⟩
    · exact ⟨h.staged call' (List.mem_of_getElem? hcall), .inl ⟨call', hcall, rfl⟩⟩
    · exact ⟨(hf call hcall).2, .inl ⟨call, hcall, (hf call hcall).1⟩⟩

/-- A new account belongs to its call alone, and signs it in. -/
theorem Sessions.accountCreated {uid email password : String} (h : Sessions currentUser es w)
    (hawaiting : w.awaiting i = some (.createUser email password)) (hcan : w.CanCreate uid email) :
    Sessions currentUser (es ++ [.createUserCallback i (.ok uid)]) (w.accountCreated i uid email) := by
  obtain ⟨call₀, hcall₀, hawait₀⟩ := awaiting_eq_some.mp hawaiting
  have hlast : lastOf createdBy (es ++ [.createUserCallback i (.ok uid)]) = some (i, uid) := by
    rw [EventRun.lastOf_concat]
    rfl
  have hentry : ∀ j call, (w.accountCreated i uid email).calls[j]? = some call ↔
      (j ≠ i ∧ w.calls[j]? = some call) ∨
        (j = i ∧ call = { call₀ with createdUid := some uid }.issue (.putData w.imageData)) := by
    intro j call
    rw [World.accountCreated, CallTable.getElem?_modify_eq_some, hcall₀]
    simp only [Option.some.injEq, exists_eq_left', eq_comm (a := call)]
  have hdistinct : CallTable.Distinct Call.createdUid w.calls := h.distinct
  have hfresh : ∀ call ∈ w.calls, call.createdUid ≠ some uid := by
    intro call hmem huid
    obtain ⟨account, haccount, heq⟩ := h.account call hmem uid huid
    exact (hcan.1 account haccount).1 heq
  refine ⟨?_, ?_, ?_, ?_, ?_, ?_⟩
  · rw [hlast]
    rfl
  · intro j uid' hj
    rw [hlast, Option.some.injEq, Prod.mk.injEq] at hj
    obtain ⟨rfl, rfl⟩ := hj
    exact ⟨_, (hentry i _).mpr (.inr ⟨rfl, rfl⟩), rfl⟩
  · intro _ _ _
    rw [hlast]
    rfl
  · intro call hmem uid' huid'
    obtain ⟨j, hcall⟩ := List.mem_iff_getElem?.mp hmem
    rcases (hentry j call).mp hcall with ⟨_, hcall⟩ | ⟨_, rfl⟩
    · obtain ⟨account, haccount, heq⟩ := h.account call (List.mem_of_getElem? hcall) uid' huid'
      exact ⟨account, List.mem_append_left _ haccount, heq⟩
    · refine ⟨⟨uid, email⟩, List.mem_append_right _ (List.mem_singleton_self _), ?_⟩
      simpa [Call.issue] using huid'
  · exact hdistinct.modify_new hfresh fun _ => rfl
  · intro call hmem
    obtain ⟨j, hcall⟩ := List.mem_iff_getElem?.mp hmem
    rcases (hentry j call).mp hcall with ⟨_, hcall⟩ | ⟨_, rfl⟩
    · exact h.staged call (List.mem_of_getElem? hcall)
    · have hstaged := h.staged call₀ (List.mem_of_getElem? hcall₀)
      simp only [Call.Staged, hawait₀] at hstaged
      simpa [Call.Staged, Call.issue] using hstaged.2

/-- A new call has no account yet. -/
theorem Sessions.press {e : Event} {call : Call} (h : Sessions currentUser es w) (he : createdBy e = none)
    (hsigned : w'.currentUser = w.currentUser) (haccounts : w'.accounts = w.accounts)
    (hcalls : w'.calls = w.calls ++ [call]) (hcall : call.createdUid = none ∧ call.Staged) :
    Sessions currentUser (es ++ [e]) w' := by
  refine h.keep he hsigned haccounts (fun j call₀ hcall₀ => ?_) fun j call' hcall' => ?_
  · refine ⟨call₀, ?_, rfl⟩
    rw [hcalls]
    exact CallTable.getElem?_concat_eq_some.mpr (.inl hcall₀)
  · rw [hcalls] at hcall'
    rcases CallTable.getElem?_concat_eq_some.mp hcall' with hcall' | ⟨_, rfl⟩
    · exact ⟨h.staged call' (List.mem_of_getElem? hcall'), .inl ⟨call', hcall', rfl⟩⟩
    · exact ⟨hcall.2, .inr hcall.1⟩

theorem Sessions.entry {request : Request} {call : Call} (h : Sessions currentUser es w)
    (hawaiting : w.awaiting i = some request) (hcall : w.calls[i]? = some call) :
    call.awaiting = some request ∧ call.Staged :=
  ⟨awaiting_of_entry hawaiting hcall, h.staged call (List.mem_of_getElem? hcall)⟩

theorem createdBy_eq_none {e : Event} (h : ∀ i, e.outcome ≠ some (i, none)) : createdBy e = none := by
  unfold createdBy
  split
  · exact absurd rfl (h _)
  · rfl

theorem step_sessions {e : Event} (h : Sessions currentUser es w) (hstep : step w e = some w') :
    Sessions currentUser (es ++ [e]) w' := by
  cases step_effect hstep with
  | screenOnly screen hout => exact h.same (createdBy_eq_none (by simp [hout])) rfl rfl rfl
  | pressed screen hemail => exact h.press rfl rfl rfl rfl ⟨rfl, rfl, by simp [Call.issue]⟩
  | failed hawaiting hout =>
    exact h.modify (createdBy_eq_none (by simp [hout])) rfl rfl rfl fun _ _ => ⟨rfl, trivial⟩
  | accountCreated hawaiting hcan => exact h.accountCreated hawaiting hcan
  | imageSaved hawaiting =>
    refine h.modify rfl rfl rfl rfl fun call hcall => ⟨rfl, ?_⟩
    obtain ⟨hrequest, hstaged⟩ := h.entry hawaiting hcall
    simp only [Call.Staged, hrequest] at hstaged
    simpa [Call.Staged, Call.issue] using hstaged
  | located hawaiting =>
    refine h.modify rfl rfl rfl rfl fun call hcall => ⟨rfl, ?_⟩
    obtain ⟨hrequest, hstaged⟩ := h.entry hawaiting hcall
    simp only [Call.Staged, hrequest] at hstaged
    exact hstaged.1
  | userInfoSaved hawaiting => exact h.modify rfl rfl rfl rfl fun _ _ => ⟨rfl, trivial⟩

end

/-! ### Runs -/

section runs
variable {accounts : List Account} {currentUser : Option String} {users : String → Option Infos}
  {es : List Event} {w : World}

theorem run_sessions (hrun : EventRun.run step (opened accounts currentUser users) es = some w) :
    Sessions currentUser es w := by
  refine EventRun.run_induction (P := Sessions currentUser) ?_
    (fun _ _ _ _ _ h hstep => step_sessions h hstep) hrun
  exact ⟨rfl, by simp, by simp [opened], by simp [opened], by simp [opened], by simp [opened]⟩

/-! ### The profile a call writes -/

theorem inOwnSession_concat {es : List Event} {e : Event}
    (he : ∀ i imageURL, e ≠ .downloadURLCallback i (.ok imageURL)) :
    InOwnSession (es ++ [e]) ↔ InOwnSession es := by
  rw [InOwnSession, along_concat]
  exact and_iff_left fun i imageURL heq => absurd heq (he i imageURL)

theorem ne_located {e : Event} (h : ∀ i, e.outcome ≠ some (i, none)) (i : ℕ) (imageURL : String) :
    e ≠ .downloadURLCallback i (.ok imageURL) := by
  rintro rfl
  exact h i rfl

theorem inOwnSession_concat_downloadURL {es : List Event} {i : ℕ} {imageURL : String} :
    InOwnSession (es ++ [.downloadURLCallback i (.ok imageURL)]) ↔
      InOwnSession es ∧ ∃ uid, lastOf createdBy es = some (i, uid) := by
  rw [InOwnSession, along_concat]
  refine and_congr_right fun _ => ⟨fun h => h i imageURL rfl, ?_⟩
  rintro h j url heq
  cases heq
  exact h

theorem writesOwn_issue {call : Call} {request : Request}
    (hrequest : ∀ userID dataToBeAdded, request ≠ .setData userID dataToBeAdded) :
    (call.issue request).WritesOwn ↔ call.WritesOwn := by
  refine forall₂_congr fun userID dataToBeAdded => ?_
  simp only [Call.issue, List.mem_append, List.mem_singleton, (hrequest userID dataToBeAdded).symm, or_false]

theorem writesOwn_setData {call : Call} {imageURL userID : String} :
    (call.issue (.setData userID (call.captured.dataToBeAdded imageURL userID))).WritesOwn ↔
      call.WritesOwn ∧ call.createdUid = some userID := by
  constructor
  · intro h
    refine ⟨fun key datas hmem => h key datas (List.mem_append_left _ hmem), ?_⟩
    exact (h userID _ (List.mem_append_right _ (List.mem_singleton_self _))).1
  · rintro ⟨h, hown⟩ key datas hmem
    rcases List.mem_append.mp hmem with hmem | hmem
    · exact h key datas hmem
    · rw [List.mem_singleton, Request.setData.injEq] at hmem
      obtain ⟨rfl, rfl⟩ := hmem
      exact ⟨hown, rfl⟩

/-- The current user is the call's own account exactly when the last account made is. -/
theorem Sessions.own_iff {i : ℕ} {call : Call} (h : Sessions currentUser es w)
    (hcall : w.calls[i]? = some call) (hcreated : call.createdUid.isSome) :
    call.createdUid = some (w.currentUser.getD "") ↔ ∃ uid, lastOf createdBy es = some (i, uid) := by
  obtain ⟨⟨k, uid⟩, hlast⟩ := Option.isSome_iff_exists.mp
    (h.some_created call (List.mem_of_getElem? hcall) hcreated)
  obtain ⟨callₖ, hcallₖ, huidₖ⟩ := h.last k uid hlast
  have hsigned : w.currentUser.getD "" = uid := by
    rw [h.signedIn, hlast]
    rfl
  rw [hsigned, hlast]
  constructor
  · intro huid
    exact ⟨uid, by rw [h.distinct i k call callₖ uid hcall hcallₖ huid huidₖ]⟩
  · rintro ⟨uid', heq⟩
    simp only [Option.some.injEq, Prod.mk.injEq] at heq
    obtain ⟨rfl, rfl⟩ := heq
    rw [hcallₖ] at hcall
    cases hcall
    exact huidₖ

theorem step_writesOwn {e : Event} {w' : World} (hsessions : Sessions currentUser es w)
    (h : All (fun _ call => call.WritesOwn) w.calls ↔ InOwnSession es) (hstep : step w e = some w') :
    All (fun _ call => call.WritesOwn) w'.calls ↔ InOwnSession (es ++ [e]) := by
  -- only a successful `downloadURL` adds a demand to the entry it changes
  have hsame : ∀ {i : ℕ} {request : Request} {f : Call → Call}, w.awaiting i = some request →
      (∀ j imageURL, e ≠ .downloadURLCallback j (.ok imageURL)) →
      (∀ call, w.calls[i]? = some call → ((f call).WritesOwn ↔ call.WritesOwn)) →
      (All (fun _ call => call.WritesOwn) (w.calls.modify i f) ↔ InOwnSession (es ++ [e])) := by
    intro i request f hawaiting he hf
    obtain ⟨call, hcall, _⟩ := awaiting_eq_some.mp hawaiting
    rw [inOwnSession_concat he, ← h, CallTable.all_modify_iff (Q := True) hcall (by simp [hf call hcall])]
    exact and_iff_left trivial
  cases step_effect hstep with
  | screenOnly screen hout =>
    rw [inOwnSession_concat (ne_located (by simp [hout]))]
    exact h
  | pressed screen hemail =>
    rw [inOwnSession_concat (by simp), CallTable.all_concat_iff, h]
    exact and_iff_left (by simp [Call.WritesOwn, Call.issue])
  | failed hawaiting hout => exact hsame hawaiting (ne_located (by simp [hout])) fun _ _ => Iff.rfl
  | accountCreated hawaiting hcan =>
    refine hsame hawaiting (by simp) fun call hcall => ?_
    -- no profile is sent before the account exists
    obtain ⟨hrequest, hstaged⟩ := hsessions.entry hawaiting hcall
    simp only [Call.Staged, hrequest] at hstaged
    rw [writesOwn_issue (by simp)]
    exact ⟨fun _ key datas hmem => absurd hmem (hstaged.2 key datas),
      fun _ key datas hmem => absurd hmem (hstaged.2 key datas)⟩
  | imageSaved hawaiting => exact hsame hawaiting (by simp) fun _ _ => writesOwn_issue (by simp)
  | located hawaiting =>
    obtain ⟨call, hcall, _⟩ := awaiting_eq_some.mp hawaiting
    obtain ⟨hrequest, hstaged⟩ := hsessions.entry hawaiting hcall
    simp only [Call.Staged, hrequest] at hstaged
    rw [inOwnSession_concat_downloadURL, ← h, ← hsessions.own_iff hcall hstaged.1]
    exact CallTable.all_modify_iff hcall writesOwn_setData
  | userInfoSaved hawaiting => exact hsame hawaiting (by simp) fun _ _ => Iff.rfl

/-- **Whose document a registration writes.** Every profile sent so far goes to the account its own call made
exactly when, at each successful `downloadURL`, no other account had been made since the call's own. -/
theorem setData_own_account_iff (hrun : EventRun.run step (opened accounts currentUser users) es = some w) :
    (∀ call ∈ w.calls, call.WritesOwn) ↔ InOwnSession es := by
  rw [← CallTable.all_iff_mem]
  refine EventRun.run_induction
    (P := fun es w => All (fun _ call => call.WritesOwn) w.calls ↔ InOwnSession es) ?_ ?_ hrun
  · exact ⟨fun _ => along_nil, fun _ => CallTable.all_nil⟩
  · exact fun es w e w' hes h hstep => step_writesOwn (run_sessions hes) h hstep

end runs

/-- The filled form, registered twice with a second email before the first photo has been uploaded. -/
def overlappingRegistrations : List Event :=
  [.editingChanged .email "a@b.c", .editingChanged .nameSurname "Ada", .editingChanged .password "secret",
    .registerButtonPressed, .createUserCallback 0 (.ok "uid0"), .registerHudDelay,
    .editingChanged .email "b@b.c", .registerButtonPressed, .createUserCallback 1 (.ok "uid1"),
    .putDataCallback 0 none, .downloadURLCallback 0 (.ok "https://host/image")]

/-- A registration that goes through, and another one after it. -/
def consecutiveRegistrations : List Event := successfulRegistration ++
  [.editingChanged .email "b@b.c", .registerButtonPressed, .createUserCallback 1 (.ok "uid1"),
    .putDataCallback 1 none, .downloadURLCallback 1 (.ok "https://host/other"), .setDataCallback 1 none]

theorem setData_own_account_consecutiveRegistrations : ∃ w,
    EventRun.run step (opened [] none fun _ => none) consecutiveRegistrations = some w ∧ w.calls.length = 2 ∧
      ∀ call ∈ w.calls, call.WritesOwn := by
  have hrun : EventRun.run step (opened [] none fun _ => none) consecutiveRegistrations = some _ := rfl
  exact ⟨_, hrun, rfl, (setData_own_account_iff hrun).mpr (by decide)⟩

/-- The first registration's profile is sent to the second one's account. -/
theorem setData_other_account : ¬ ∀ es w,
    EventRun.run step (opened [] none fun _ => none) es = some w → ∀ call ∈ w.calls, call.WritesOwn := by
  intro h
  have hcall := h overlappingRegistrations _ rfl _ (List.mem_of_getElem? (i := 0) rfl)
  have hown : some "uid0" = some "uid1" := (hcall "uid1" _ (List.mem_of_getElem? (i := 3) rfl)).1
  simp at hown

end CloneProjects.Tinder.Register
