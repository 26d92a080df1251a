import CloneProjects.Insta.Accounts
import CloneProjects.Pods.SDWebImage

/-!
# The profile screen

`UserProfileVC` over the Firebase project that the registrations fill. A stored document is never changed again, so
a screen that has loaded the document of its user shows the user name of that user's registration for good, and its
header no picture but that of the registration's own upload.
-/

namespace CloneProjects.Insta

open CallTable (All)
open EventRun (run)

/-! ### Documents are kept -/

section documents
variable {addphotobuttonimage : UIImage} {accounts : List Account} {users : String → Option Infos} {w w' m : World}
  {e : Event} {es pre post : List Event} {uid : String} {userData : Infos}

/-- A registration writes into no document that is there. -/
theorem step_users_kept
    (hrun : run (step addphotobuttonimage) (opened addphotobuttonimage accounts users) es = some w)
    (hstep : step addphotobuttonimage w e = some w') (hstored : w.users uid = some userData) :
    w'.users uid = some userData := by
  cases step_effect hstep with
  | edited | picked | pressed | refused | accountCreated | uploadFailed | imageSaved | located | saveFailed | hudGone =>
    exact hstored
  | @saved i document willBeAddedData hawaiting =>
    dsimp only
    rw [Function.update_of_ne ?_, hstored]
    rintro rfl
    obtain ⟨call, hcall, hrequest⟩ := awaiting_eq_some.mp hawaiting
    obtain ⟨result, hanswers, _, hstands⟩ := (run_progress hrun i call hcall).of_setData hrequest
    rcases run_stored hrun i call hcall uid hstands.uid with ⟨_, hnone⟩ | ⟨hsaved, _⟩
    · rw [hnone] at hstored
      cases hstored
    · rw [← mem_answers rfl, hanswers] at hsaved
      simp at hsaved

/-- **Stored documents stay.** Whatever registrations run at once, over whatever documents there were: a document
that is there is never changed and never goes. -/
theorem stored_document_kept
    (hpre : run (step addphotobuttonimage) (opened addphotobuttonimage accounts users) pre = some m)
    (hstored : m.users uid = some userData)
    (hrun : run (step addphotobuttonimage) (opened addphotobuttonimage accounts users) (pre ++ post) = some w) :
    w.users uid = some userData :=
  EventRun.run_suffix (P := fun _ (w : World) => w.users uid = some userData) hpre hstored
    (fun _ _ _ _ hes _ hstored hstep => step_users_kept hes hstep hstored) hrun

/-- The form is filled again, and Bob registers. -/
def registeredAgain : List Event := [.editingChanged .email "d@e.f", .editingChanged .userName "bob",
  .editingChanged .password "secret", .registerButtonClicked, .createUserCallback 1 (.ok "uid1"),
  .putDataCallback 1 none, .downloadURLCallback 1 (.ok ⟨"https://host/other", by decide⟩), .setDataCallback 1 none]

theorem stored_document_kept_registeredAgain : ∃ w,
    run (step ⟨"add", none⟩) (opened ⟨"add", none⟩ [] fun _ => none) (registered ++ registeredAgain) = some w ∧
    w.users "uid0" = some (willBeAddedData "ada" "uid0" "https://host/image") := by
  have hpre : run (step ⟨"add", none⟩) (opened ⟨"add", none⟩ [] fun _ => none) registered = some _ := rfl
  have hrun : run (step ⟨"add", none⟩) (opened ⟨"add", none⟩ [] fun _ => none) (registered ++ registeredAgain) =
    some _ := rfl
  exact ⟨_, hrun, stored_document_kept hpre rfl hrun⟩

/-- A call keeps its account. -/
theorem step_registeredUserID {i : ℕ} {call : Call}
    (hrun : run (step addphotobuttonimage) (opened addphotobuttonimage accounts users) es = some w)
    (hstep : step addphotobuttonimage w e = some w') (hcall : w.calls[i]? = some call)
    (huid : call.registeredUserID = some uid) :
    ∃ call', w'.calls[i]? = some call' ∧ call'.registeredUserID = some uid := by
  cases step_effect hstep with
  | edited | picked => exact ⟨call, hcall, huid⟩
  | pressed => exact ⟨call, CallTable.getElem?_concat_of hcall, huid⟩
  | @accountCreated j uid' email password hawaiting hcan =>
    refine CallTable.exists_modify_of hcall (fun hij => ?_) fun _ => huid
    subst hij
    obtain ⟨_, hstands⟩ :=
      (run_progress hrun i call hcall).of_createUser (awaiting_of_entry hawaiting hcall)
    rw [hstands.uid] at huid
    cases huid
  | refused | uploadFailed | imageSaved | located | saveFailed | saved | hudGone =>
    exact CallTable.exists_modify_of hcall (fun _ => huid) fun _ => huid

/-- A document was there at the start or was written by the registration that made its account. -/
theorem run_users
    (hrun : run (step addphotobuttonimage) (opened addphotobuttonimage accounts users) es = some w)
    (hstored : w.users uid = some userData) :
    users uid = some userData ∨ ∃ (i : ℕ) (call : Call) (result : Except SwiftError URL), w.calls[i]? = some call ∧
      call.registeredUserID = some uid ∧ .createUserCallback i (.ok uid) ∈ es ∧ .downloadURLCallback i result ∈ es ∧
      userData = willBeAddedData call.userName uid (absoluteString result) := by
  have hcalls : users uid = some userData ∨
      ∃ (i : ℕ) (call : Call), w.calls[i]? = some call ∧ call.registeredUserID = some uid := by
    refine EventRun.run_induction (P := fun _ (w : World) => ∀ uid userData, w.users uid = some userData →
      users uid = some userData ∨ ∃ (i : ℕ) (call : Call), w.calls[i]? = some call ∧ call.registeredUserID = some uid)
      (fun _ _ h => .inl h) (fun es w e w' hes ih hstep uid userData hstored => ?_) hrun uid userData hstored
    have hkeep : w.users uid = some userData → users uid = some userData ∨
        ∃ (i : ℕ) (call : Call), w'.calls[i]? = some call ∧ call.registeredUserID = some uid := by
      intro hold
      refine (ih uid userData hold).imp id ?_
      rintro ⟨i, call, hcall, huid⟩
      obtain ⟨call', hcall', huid'⟩ := step_registeredUserID hes hstep hcall huid
      exact ⟨i, call', hcall', huid'⟩
    cases hcase : step_effect hstep with
    | edited | picked | pressed | refused | accountCreated | uploadFailed | imageSaved | located | saveFailed
    | hudGone => exact hkeep hstored
    | @saved i document willBeAddedData hawaiting =>
      dsimp only at hstored
      rw [Function.update_apply] at hstored
      split at hstored
      · rename_i heq
        subst heq
        obtain ⟨call, hcall, hrequest⟩ := awaiting_eq_some.mp hawaiting
        obtain ⟨_, _, _, hstands⟩ := (run_progress hes i call hcall).of_setData hrequest
        obtain ⟨call', hcall', huid'⟩ := step_registeredUserID hes hstep hcall hstands.uid
        exact .inr ⟨i, call', hcall', huid'⟩
      · exact hkeep hstored
  refine hcalls.imp id ?_
  rintro ⟨i, call, hcall, huid⟩
  rcases run_stored hrun i call hcall uid huid with ⟨_, hnone⟩ | ⟨_, result, hresult, hdocument⟩
  · rw [hnone] at hstored
    cases hstored
  · rw [hstored, Option.some.injEq] at hdocument
    exact ⟨i, call, result, hcall, huid, (run_progress hrun i call hcall).created huid, hresult, hdocument⟩

end documents

/-! ### The screens -/

namespace Profile

structure UserProfileVC where
  currentUser : Option User
  /-- `navigationItem.title`. -/
  title : Option String
  /-- Who was signed in at `viewDidLoad`. -/
  currentUserID : Option String
  /-- Whether the `getDocument` of `getUser` is unanswered. -/
  pending : Bool
  /-- The blocks on the main queue that set the title. -/
  titleUpdates : ℕ

/-- The registrations, the profile screens opened so far and the image manager. The header of screen `k` has the
image view `k`. -/
structure World (Image : Type) where
  registration : Insta.World
  /-- `Auth.auth().currentUser?.uid`. -/
  currentUser : Option String
  profiles : List UserProfileVC
  images : SDWebImage.World Image

inductive Event (Image : Type)
  | registration (e : Insta.Event)
  | viewDidLoad
  | getDocumentCallback (k : ℕ) (error : Option SwiftError)
  | titleUpdate (k : ℕ)
  | viewForSupplementaryElement (k : ℕ)
  /-- A callback of the manager. -/
  | images (e : SDWebImage.Event Image)

/-- A successful `createUser` signs its account in. -/
def signedIn (currentUser : Option String) : Insta.Event → Option String
  | .createUserCallback _ (.ok uid) => some uid
  | _ => currentUser

/-- `viewDidLoad`, whose `getUser` asks for the document of the signed-in user. -/
def UserProfileVC.viewDidLoad (currentUserID : Option String) : UserProfileVC :=
  ⟨none, some "User", currentUserID, currentUserID.isSome, 0⟩

/-- The callback of `getDocument`. -/
def UserProfileVC.userFetched (vc : UserProfileVC) : Except SwiftError (Option Infos) → UserProfileVC
  | .error _ => { vc with pending := false }
  | .ok none => { vc with pending := false }
  | .ok (some userData) =>
    { vc with pending := false, currentUser := some (User.init userData), titleUpdates := vc.titleUpdates + 1 }

/-- The block on the main queue. -/
def UserProfileVC.titleUpdated (vc : UserProfileVC) : UserProfileVC :=
  { vc with title := vc.currentUser.map (·.userName), titleUpdates := vc.titleUpdates - 1 }

section step
variable {Image : Type} (addphotobuttonimage : UIImage) (accepts : String → Bool)

/-- The observer of the header's `currentUser`. -/
def setCurrentUser (k : ℕ) (currentUser : Option User) (images : SDWebImage.World Image) : SDWebImage.World Image :=
  images.showImage accepts k ((currentUser.map (·.profileImageURL)).getD "")

def step (w : World Image) : Event Image → Option (World Image)
  | .registration e => do
    let registration ← Insta.step addphotobuttonimage w.registration e
    some { w with registration := registration, currentUser := signedIn w.currentUser e }
  | .viewDidLoad => some { w with profiles := w.profiles ++ [.viewDidLoad w.currentUser] }
  | .getDocumentCallback k error => do
    let vc ← w.profiles[k]?
    if vc.pending then
      let response := match error with
        | some error => .error error
        | none => .ok (vc.currentUserID.bind w.registration.users)
      some { w with profiles := w.profiles.set k (vc.userFetched response) }
    else none
  | .titleUpdate k => do
    let vc ← w.profiles[k]?
    if 0 < vc.titleUpdates then
      some { w with profiles := w.profiles.set k vc.titleUpdated }
    else none
  | .viewForSupplementaryElement k => do
    let vc ← w.profiles[k]?
    some { w with images := setCurrentUser accepts k vc.currentUser w.images }
  -- the image views belong to the headers: no one else loads into them
  | .images (.sd_setImage _ _) => none
  | .images e => do
    let images ← SDWebImage.step w.images e
    some { w with images := images }

/-- The empty project, and no screen but the registration's. -/
def opened (images : SDWebImage.World Image) : World Image :=
  ⟨Insta.opened addphotobuttonimage [] fun _ => none, none, [], images⟩

end step

/-! ### What a screen shows -/

/-- What the disk and the network deliver is a picture of the URL it was asked for. -/
def Delivers {Image : Type} (Of : SDWebImage.URL → Image → Prop) (w : World Image) : Event Image → Prop
  | .images e => SDWebImage.Delivers Of w.images e
  | _ => True

/-- The events of the registration screen. -/
def Event.registration? {Image : Type} : Event Image → Option Insta.Event
  | .registration e => some e
  | _ => none

def registrations {Image : Type} (es : List (Event Image)) : List Insta.Event := es.filterMap Event.registration?

/-- A screen that waits for its document shows none of it; one that has loaded it shows that document, the user
name as soon as its block has run. -/
structure Shown {Image : Type} (accepts : String → Bool) (users : String → Option Infos)
    (images : SDWebImage.World Image) (k : ℕ) (vc : UserProfileVC) : Prop where
  waiting : vc.currentUser = none → vc.title = some "User" ∧ vc.titleUpdates = 0 ∧
    (images.views k).sd_imageURL = none
  loaded : ∀ user, vc.currentUser = some user → vc.pending = false ∧
    (∃ uid userData, vc.currentUserID = some uid ∧ users uid = some userData ∧ user = User.init userData) ∧
    vc.title = some (if vc.titleUpdates = 0 then user.userName else "User") ∧ vc.titleUpdates ≤ 1 ∧
    ∀ url, (images.views k).sd_imageURL = some url → url = user.profileImageURL ∧ accepts url = true

section
variable {Image : Type} {addphotobuttonimage : UIImage} {accepts : String → Bool} {w w' : World Image}
  {e : Event Image} {es : List (Event Image)} {k : ℕ} {vc : UserProfileVC} {users users' : String → Option Infos}
  {images images' : SDWebImage.World Image}

theorem Shown.mono (h : Shown accepts users images k vc)
    (husers : ∀ uid userData, users uid = some userData → users' uid = some userData)
    (himages : (images'.views k).sd_imageURL = (images.views k).sd_imageURL) : Shown accepts users' images' k vc where
  waiting hnone := by
    rw [himages]
    exact h.waiting hnone
  loaded user huser := by
    obtain ⟨hpending, ⟨uid, userData, huid, hstored, heq⟩, hrest⟩ := h.loaded user huser
    rw [himages]
    exact ⟨hpending, ⟨uid, userData, huid, husers uid userData hstored, heq⟩, hrest⟩

theorem Shown.userFetched (h : Shown accepts users images k vc) (hpending : vc.pending = true)
    (response : Except SwiftError (Option Infos))
    (hresponse : ∀ found, response = .ok found → found = vc.currentUserID.bind users) :
    Shown accepts users images k (vc.userFetched response) := by
  have hnone : vc.currentUser = none := by
    cases huser : vc.currentUser with
    | none => rfl
    | some user =>
      rw [(h.loaded user huser).1] at hpending
      cases hpending
  have hanswered : Shown accepts users images k { vc with pending := false } := by
    refine ⟨h.waiting, fun user huser => ?_⟩
    rw [show vc.currentUser = some user from huser] at hnone
    cases hnone
  match response, hresponse with
  | .error error, _ => exact hanswered
  | .ok none, _ => exact hanswered
  | .ok (some userData), hresponse =>
    obtain ⟨htitle, hupdates, hurl⟩ := h.waiting hnone
    obtain ⟨uid, huid, hstored⟩ := Option.bind_eq_some_iff.mp (hresponse _ rfl).symm
    refine ⟨fun hwaiting => (by cases hwaiting), fun user huser => ?_⟩
    cases huser
    refine ⟨rfl, ⟨uid, userData, huid, hstored, rfl⟩, ?_, ?_, fun url hurl' => ?_⟩
    · simp [UserProfileVC.userFetched, htitle]
    · simp [UserProfileVC.userFetched, hupdates]
    · rw [hurl] at hurl'
      cases hurl'

theorem Shown.titleUpdated (h : Shown accepts users images k vc) (hupdates : 0 < vc.titleUpdates) :
    Shown accepts users images k vc.titleUpdated := by
  refine ⟨fun hnone => ?_, fun user huser => ?_⟩
  · rw [(h.waiting hnone).2.1] at hupdates
    omega
  · obtain ⟨hpending, hdocument, _, hone, hurl⟩ := h.loaded user huser
    have huser' : vc.currentUser = some user := huser
    have hzero : vc.titleUpdated.titleUpdates = 0 := by
      show vc.titleUpdates - 1 = 0
      omega
    refine ⟨hpending, hdocument, ?_, by omega, hurl⟩
    rw [hzero, if_pos rfl]
    show vc.currentUser.map (·.userName) = some user.userName
    rw [huser', Option.map_some]

/-- The invariant of the screens and their image views; the view of a screen to come is unused. -/
structure Agrees (accepts : String → Bool) (w : World Image) : Prop where
  consistent : w.images.Consistent
  screens : All (Shown accepts w.registration.users w.images) w.profiles
  unused : ∀ k, w.profiles.length ≤ k → (w.images.views k).sd_imageURL = none
  blank : ∀ k, (w.images.views k).sd_imageURL = none → (w.images.views k).image = none

/-- One screen changes. -/
theorem Agrees.set (h : Agrees accepts w) {vc' : UserProfileVC}
    (hshown : Shown accepts w.registration.users w.images k vc') :
    Agrees accepts { w with profiles := w.profiles.set k vc' } := by
  refine ⟨h.consistent, fun j vc hj => ?_, fun j hj => ?_, h.blank⟩
  · dsimp only at hj ⊢
    rw [List.getElem?_set] at hj
    split at hj
    · rename_i heq
      subst heq
      split at hj
      · cases hj
        exact hshown
      · cases hj
    · exact h.screens j vc hj
  · rw [List.length_set] at hj
    exact h.unused j hj

theorem step_images {e : SDWebImage.Event Image} (hstep : step addphotobuttonimage accepts w (.images e) = some w') :
    (∀ v url, e ≠ .sd_setImage v url) ∧ ∃ images, SDWebImage.step w.images e = some images ∧
      w' = { w with images := images } := by
  cases e with
  | sd_setImage v url => cases hstep
  | queryDisk | diskQueried | queryDone | downloaded | evicted =>
    simp only [step, Option.bind_eq_bind, Option.bind_eq_some_iff, Option.some.injEq] at hstep
    obtain ⟨images, himages, rfl⟩ := hstep
    exact ⟨by simp, images, himages, rfl⟩

/-- The header is given what the screen has loaded; `URL(string:)` makes nothing of no text. -/
theorem Shown.setCurrentUser (hempty : accepts "" = false) (h : Shown accepts users images k vc) :
    Shown accepts users (setCurrentUser accepts k vc.currentUser images) k vc := by
  refine ⟨fun hnone => ?_, fun user huser => ?_⟩
  · obtain ⟨htitle, hupdates, hurl⟩ := h.waiting hnone
    refine ⟨htitle, hupdates, ?_⟩
    rw [Profile.setCurrentUser, SDWebImage.World.showImage_sd_imageURL, hnone, Option.map_none, Option.getD_none,
      if_neg (by simp [hempty]), hurl]
  · obtain ⟨hpending, hdocument, htitle, hupdates, hurl⟩ := h.loaded user huser
    refine ⟨hpending, hdocument, htitle, hupdates, fun url hurl' => ?_⟩
    rw [Profile.setCurrentUser, SDWebImage.World.showImage_sd_imageURL, huser, Option.map_some,
      Option.getD_some] at hurl'
    split at hurl'
    · rename_i haccepts
      cases hurl'
      exact ⟨rfl, haccepts.2⟩
    · exact hurl url hurl'

theorem step_agrees (hempty : accepts "" = false) {fs : List Insta.Event}
    (hrun : run (Insta.step addphotobuttonimage) (Insta.opened addphotobuttonimage [] fun _ => none) fs =
      some w.registration)
    (h : Agrees accepts w) (hstep : step addphotobuttonimage accepts w e = some w') : Agrees accepts w' := by
  cases e with
  | registration e =>
    simp only [step, Option.bind_eq_bind, Option.bind_eq_some_iff, Option.some.injEq] at hstep
    obtain ⟨registration, hregistration, rfl⟩ := hstep
    refine ⟨h.consistent, fun j vc hj => ?_, h.unused, h.blank⟩
    exact (h.screens j vc hj).mono (fun uid userData => step_users_kept hrun hregistration) rfl
  | viewDidLoad =>
    cases hstep
    refine ⟨h.consistent, h.screens.concat ⟨fun _ => ⟨rfl, rfl, h.unused _ le_rfl⟩, fun user huser => ?_⟩,
      fun j hj => h.unused j ?_, h.blank⟩
    · cases huser
    · simp only [List.length_append, List.length_singleton] at hj
      omega
  | getDocumentCallback k error =>
    obtain ⟨vc, hvc, hstep⟩ := Option.bind_eq_some_iff.mp hstep
    split at hstep
    · rename_i hpending
      cases hstep
      refine h.set ((h.screens k vc hvc).userFetched hpending _ fun found hfound => ?_)
      cases error with
      | none => exact (Except.ok.inj hfound).symm
      | some error => cases hfound
    · cases hstep
  | titleUpdate k =>
    obtain ⟨vc, hvc, hstep⟩ := Option.bind_eq_some_iff.mp hstep
    split at hstep
    · rename_i hupdates
      cases hstep
      exact h.set ((h.screens k vc hvc).titleUpdated hupdates)
    · cases hstep
  | viewForSupplementaryElement k =>
    obtain ⟨vc, hvc, hstep⟩ := Option.bind_eq_some_iff.mp hstep
    cases hstep
    have hother : ∀ {j : ℕ}, j ≠ k →
        ((setCurrentUser accepts k vc.currentUser w.images).views j).sd_imageURL = (w.images.views j).sd_imageURL := by
      intro j hj
      rw [setCurrentUser, SDWebImage.World.showImage_sd_imageURL, if_neg fun h' => hj h'.1]
    refine ⟨h.consistent.showImage _, fun j vc' hj => ?_, fun j hj => ?_, fun j hurl => ?_⟩
    · by_cases hjk : j = k
      · subst hjk
        rw [hvc, Option.some.injEq] at hj
        exact hj ▸ (h.screens j vc hvc).setCurrentUser hempty
      · exact (h.screens j vc' hj).mono (fun _ _ => id) (hother hjk)
    · have hk : k < w.profiles.length := (List.getElem?_eq_some_iff.mp hvc).1
      have hj' : w.profiles.length ≤ j := hj
      exact (hother (by omega)).trans (h.unused j hj)
    · refine (SDWebImage.World.showImage_image_of_unloaded _ hurl).trans (h.blank j ?_)
      rw [setCurrentUser, SDWebImage.World.showImage_sd_imageURL] at hurl
      split at hurl
      · cases hurl
      · exact hurl
  | images e =>
    obtain ⟨hload, images, himages, rfl⟩ := step_images hstep
    have hkeeps := (SDWebImage.step_keeps himages hload).1
    refine ⟨SDWebImage.step_consistent h.consistent himages, fun j vc hj => ?_, fun j hj => ?_, fun j hurl => ?_⟩
    · exact (h.screens j vc hj).mono (fun _ _ => id) (hkeeps j).2
    · exact (hkeeps j).2.trans (h.unused j hj)
    · have hbefore : (w.images.views j).sd_imageURL = none := (hkeeps j).2.symm.trans hurl
      exact (SDWebImage.step_image_of_unloaded h.consistent himages hload hbefore).trans (h.blank j hbefore)

variable {Of : SDWebImage.URL → Image → Prop}

theorem run_registrations
    (hrun : run (step addphotobuttonimage accepts) (opened addphotobuttonimage images) es = some w) :
    run (Insta.step addphotobuttonimage) (Insta.opened addphotobuttonimage [] fun _ => none) (registrations es) =
      some w.registration := by
  refine EventRun.run_projection (g := World.registration) (f := Event.registration?) (fun s e s' hstep => ?_) hrun
  cases e with
  | registration e =>
    simp only [step, Option.bind_eq_bind, Option.bind_eq_some_iff, Option.some.injEq] at hstep
    obtain ⟨registration, hregistration, rfl⟩ := hstep
    exact hregistration
  | viewDidLoad =>
    cases hstep
    rfl
  | getDocumentCallback k error | titleUpdate k =>
    obtain ⟨vc, _, hstep⟩ := Option.bind_eq_some_iff.mp hstep
    split at hstep
    · cases hstep
      rfl
    · cases hstep
  | viewForSupplementaryElement k =>
    obtain ⟨vc, _, hstep⟩ := Option.bind_eq_some_iff.mp hstep
    cases hstep
    rfl
  | images e =>
    obtain ⟨_, images, _, rfl⟩ := step_images hstep
    rfl

theorem run_agrees (hempty : accepts "" = false) (hstart : images.Start Of)
    (hblank : ∀ v, (images.views v).image = none)
    (hrun : run (step addphotobuttonimage accepts) (opened addphotobuttonimage images) es = some w) :
    Agrees accepts w := by
  refine EventRun.run_induction (P := fun _ w => Agrees accepts w)
    ⟨SDWebImage.run_consistent hstart (rfl : run SDWebImage.step images [] = some images), CallTable.all_nil,
      fun k _ => (hstart.views k).1, fun k _ => hblank k⟩
    (fun es w e w' hes h hstep => step_agrees hempty (run_registrations hes) h hstep) hrun

theorem step_pictures (h : w.images.Pictures Of) (hdelivers : Delivers Of w e)
    (hstep : step addphotobuttonimage accepts w e = some w') : w'.images.Pictures Of := by
  cases e with
  | registration e =>
    simp only [step, Option.bind_eq_bind, Option.bind_eq_some_iff, Option.some.injEq] at hstep
    obtain ⟨registration, _, rfl⟩ := hstep
    exact h
  | viewDidLoad =>
    cases hstep
    exact h
  | getDocumentCallback k error | titleUpdate k =>
    obtain ⟨vc, _, hstep⟩ := Option.bind_eq_some_iff.mp hstep
    split at hstep
    · cases hstep
      exact h
    · cases hstep
  | viewForSupplementaryElement k =>
    obtain ⟨vc, _, hstep⟩ := Option.bind_eq_some_iff.mp hstep
    cases hstep
    exact h.showImage _
  | images e =>
    obtain ⟨_, images, himages, rfl⟩ := step_images hstep
    exact SDWebImage.step_pictures h himages hdelivers

/-- **The profile screen.** Starting from an empty project, whatever registrations run and whatever callbacks come in
between: a screen either shows nothing of its user, or the user signed in when it opened was made by one press of the
register button, its title is `User` until its block has run and then the user name typed at that press, and its
header shows no picture but one of the URL that this registration's own upload got. -/
theorem profile_shows_registration (hempty : accepts "" = false) (hstart : images.Start Of)
    (hblank : ∀ v, (images.views v).image = none)
    (hrun : run (step addphotobuttonimage accepts) (opened addphotobuttonimage images) es = some w)
    (hdelivers : EventRun.Guarded (step addphotobuttonimage accepts) (fun _ w e => Delivers Of w e)
      (opened addphotobuttonimage images) es) (hvc : w.profiles[k]? = some vc) :
    (vc.title = some "User" ∧ (w.images.views k).image = none) ∨
      ∃ (uid : String) (pre : List Insta.Event) (m : Insta.World) (post : List Insta.Event)
        (result : Except SwiftError URL), vc.currentUserID = some uid ∧
        registrations es = pre ++ .registerButtonClicked :: post ∧
        run (Insta.step addphotobuttonimage) (Insta.opened addphotobuttonimage [] fun _ => none) pre = some m ∧
        .createUserCallback m.calls.length (.ok uid) ∈ registrations es ∧
        .downloadURLCallback m.calls.length result ∈ registrations es ∧
        vc.title = some (if vc.titleUpdates = 0 then m.screen.userNameTextField else "User") ∧
        ∀ image, (w.images.views k).image = some image →
          ∃ url : URL, result = .ok url ∧ Of url.absoluteString image := by
  have hregistrations := run_registrations hrun
  have hagrees : Agrees accepts w := run_agrees hempty hstart hblank hrun
  have hpictures : w.images.Pictures Of := by
    have hopened : (opened addphotobuttonimage images).images.Pictures Of := by
      refine ⟨hstart.memory, ?_⟩
      rw [opened, hstart.operations]
      exact CallTable.all_nil
    refine EventRun.guarded_induction (P := fun _ w => w.images.Pictures Of) hopened ?_ hrun hdelivers
    exact fun _ s e s' _ hC hs hstep => step_pictures hs hC hstep
  have hshown := hagrees.screens k vc hvc
  cases huser : vc.currentUser with
  | none =>
    obtain ⟨htitle, _, hurl⟩ := hshown.waiting huser
    exact .inl ⟨htitle, hagrees.blank k hurl⟩
  | some user =>
    right
    obtain ⟨_, ⟨uid, userData, huid, hstored, rfl⟩, htitle, _, hurl⟩ := hshown.loaded user huser
    rcases run_users hregistrations hstored with hnone | ⟨i, call, result, hcall, _, hcreated, hlocated, rfl⟩
    · cases hnone
    · obtain ⟨pre, m, post, hes, hpre, rfl, _, hname⟩ := run_pressedAt hregistrations i call hcall
      refine ⟨uid, pre, m, post, result, huid, hes, hpre, hcreated, hlocated, ?_, fun image himage => ?_⟩
      · rw [htitle, user_init_willBeAddedData, hname]
      · cases hloaded : (w.images.views k).sd_imageURL with
        | none =>
          rw [hagrees.blank k hloaded] at himage
          cases himage
        | some url =>
          obtain ⟨hprofile, haccepts⟩ := hurl url hloaded
          rw [user_init_willBeAddedData] at hprofile
          dsimp only at hprofile
          have hof : Of url image := hpictures.of_image hagrees.consistent hloaded himage
          cases result with
          | ok url' =>
            rw [hprofile] at hof
            exact ⟨url', rfl, hof⟩
          | error error =>
            rw [hprofile] at haccepts
            exact absurd haccepts (by simp [absoluteString, hempty])

end

/-- Ada registers and opens her profile. -/
def openedProfile : List (Event String) :=
  (registered.map .registration) ++ [.viewDidLoad, .getDocumentCallback 0 none, .viewForSupplementaryElement 0,
    .images (.queryDisk 0), .images (.diskQueried 0 (some "https://host/image")), .images (.queryDone 0),
    .titleUpdate 0]

theorem profile_shows_registration_openedProfile : ∃ (w : World String) (vc : UserProfileVC),
    run (step ⟨"add", none⟩ (fun text => text ≠ "")) (opened ⟨"add", none⟩ .blank) openedProfile = some w ∧
    w.profiles[0]? = some vc ∧ ∃ (uid : String) (pre : List Insta.Event) (m : Insta.World) (post : List Insta.Event),
      vc.currentUserID = some uid ∧ registrations openedProfile = pre ++ .registerButtonClicked :: post ∧
      run (Insta.step ⟨"add", none⟩) (Insta.opened ⟨"add", none⟩ [] fun _ => none) pre = some m ∧
      vc.title = some m.screen.userNameTextField ∧ (w.images.views 0).image = some "https://host/image" ∧
      ∃ url : URL, .downloadURLCallback m.calls.length (.ok url) ∈ registrations openedProfile ∧
        "https://host/image" = url.absoluteString := by
  have hstart : SDWebImage.World.blank.Start fun url image => image = url :=
    ⟨fun _ => ⟨rfl, rfl⟩, rfl, by simp [SDWebImage.World.blank]⟩
  have hdelivers : EventRun.Guarded (step ⟨"add", none⟩ (fun text => text ≠ ""))
      (fun _ w e => Delivers (fun url image => image = url) w e) (opened ⟨"add", none⟩ .blank) openedProfile := by
    iterate 15 refine (EventRun.guarded_cons rfl).mpr ⟨?_, ?_⟩; swap
    · exact EventRun.guarded_nil
    all_goals first | trivial | (rintro op ⟨⟩; rfl)
  have hrun : run (step ⟨"add", none⟩ (fun text => text ≠ "")) (opened ⟨"add", none⟩ .blank) openedProfile =
    some _ := rfl
  rcases profile_shows_registration rfl hstart (fun _ => rfl) hrun hdelivers (k := 0) rfl with
    ⟨hwaiting, _⟩ | ⟨uid, pre, m, post, _, huid, hes, hpre, _, hlocated, htitle, hpicture⟩
  · exact absurd (Option.some.inj hwaiting : "ada" = "User") (by decide)
  · obtain ⟨url, rfl, himage⟩ := hpicture "https://host/image" rfl
    exact ⟨_, _, hrun, rfl, uid, pre, m, post, huid, hes, hpre, htitle, rfl, url, hlocated, himage⟩

end Profile

end CloneProjects.Insta
