import CloneProjects.Insta.Button

/-!
# What a press gives back

The callbacks a press has got say where it stands (`Progress`): what it waits for, whether its HUD is up and whether
its closures have run `resetAppearance`. A failed `putData` leaves the HUD up; a failed `downloadURL` wipes the form
and carries on; a failed `setData` comes after the form has been wiped.
-/

namespace CloneProjects.Insta

open CallTable (All)
open EventRun (run Guarded)

/-- The callbacks of call `i`, in the order they fired. -/
def answers (i : ℕ) (es : List Event) : List Event := es.filter (·.call = some i)

/-- Where a call stands: what it waits for, its account, whether its HUD is up and whether it has reset the form. -/
structure Call.Stands (call : Call) (awaiting : Option Request) (uid : Option String) (shown reset : Bool) :
    Prop where
  awaiting : call.awaiting = awaiting
  uid : call.registeredUserID = uid
  shown : decide (call.hud.state = .shown) = shown
  reset : call.formReset = reset

/-- Where a call stands after its callbacks. -/
inductive Progress (i : ℕ) (call : Call) : List Event → Prop
  | creating (h : call.Stands (some (.createUser call.emailAdress call.password)) none true false) :
    Progress i call []
  | refused {error : SwiftError} (h : call.Stands none none false false) :
    Progress i call [.createUserCallback i (.error error)]
  | uploading {uid : String} {imageData : Data} (h : call.Stands (some (.putData imageData)) (some uid) true false) :
    Progress i call [.createUserCallback i (.ok uid)]
  | uploadFailed {uid : String} {error : SwiftError} (h : call.Stands none (some uid) true false) :
    Progress i call [.createUserCallback i (.ok uid), .putDataCallback i (some error)]
  | locating {uid : String} (h : call.Stands (some .downloadURL) (some uid) true false) :
    Progress i call [.createUserCallback i (.ok uid), .putDataCallback i none]
  | saving {uid : String} {result : Except SwiftError URL}
    (h : call.Stands (some (.setData uid (willBeAddedData call.userName uid (absoluteString result)))) (some uid)
      false true) :
    Progress i call [.createUserCallback i (.ok uid), .putDataCallback i none, .downloadURLCallback i result]
  | finished {uid : String} {result : Except SwiftError URL} {error : Option SwiftError}
    (h : call.Stands none (some uid) false true) :
    Progress i call [.createUserCallback i (.ok uid), .putDataCallback i none, .downloadURLCallback i result,
      .setDataCallback i error]

section
variable {addphotobuttonimage : UIImage} {w w' : World} {e : Event} {es : List Event} {i : ℕ} {call : Call}

theorem answers_concat_same (h : e.call = some i) : answers i (es ++ [e]) = answers i es ++ [e] := by
  simp [answers, List.filter_append, h]

theorem answers_concat_other (h : e.call ≠ some i) : answers i (es ++ [e]) = answers i es := by
  simp [answers, List.filter_append, h]

theorem mem_answers (h : e.call = some i) : e ∈ answers i es ↔ e ∈ es := by
  simp [answers, h]

/-! ### What a call waits for tells its callbacks -/

namespace Progress
variable {l : List Event}

theorem of_createUser {email password : String} (h : Progress i call l)
    (hawaiting : call.awaiting = some (.createUser email password)) :
    l = [] ∧ call.Stands (some (.createUser call.emailAdress call.password)) none true false := by
  cases h with
  | creating h => exact ⟨rfl, h⟩
  | refused h | uploading h | uploadFailed h | locating h | saving h | finished h =>
    rw [h.awaiting] at hawaiting
    cases hawaiting

theorem of_putData {imageData : Data} (h : Progress i call l)
    (hawaiting : call.awaiting = some (.putData imageData)) :
    ∃ uid, l = [.createUserCallback i (.ok uid)] ∧
      call.Stands (some (.putData imageData)) (some uid) true false := by
  cases h with
  | uploading h => exact ⟨_, rfl, hawaiting, h.uid, h.shown, h.reset⟩
  | creating h | refused h | uploadFailed h | locating h | saving h | finished h =>
    rw [h.awaiting] at hawaiting
    cases hawaiting

theorem of_downloadURL (h : Progress i call l) (hawaiting : call.awaiting = some .downloadURL) :
    ∃ uid, l = [.createUserCallback i (.ok uid), .putDataCallback i none] ∧
      call.Stands (some .downloadURL) (some uid) true false := by
  cases h with
  | locating h => exact ⟨_, rfl, h⟩
  | creating h | refused h | uploading h | uploadFailed h | saving h | finished h =>
    rw [h.awaiting] at hawaiting
    cases hawaiting

theorem of_setData {document : String} {data : Infos} (h : Progress i call l)
    (hawaiting : call.awaiting = some (.setData document data)) :
    ∃ result, l = [.createUserCallback i (.ok document), .putDataCallback i none, .downloadURLCallback i result] ∧
      data = willBeAddedData call.userName document (absoluteString result) ∧
      call.Stands (some (.setData document data)) (some document) false true := by
  cases h with
  | saving h =>
    have hrequest := h.awaiting
    rw [hawaiting, Option.some.injEq, Request.setData.injEq] at hrequest
    obtain ⟨rfl, rfl⟩ := hrequest
    exact ⟨_, rfl, rfl, h⟩
  | creating h | refused h | uploading h | uploadFailed h | locating h | finished h =>
    rw [h.awaiting] at hawaiting
    cases hawaiting

/-- The delay of a HUD that is on its way out. -/
theorem hudGone (h : Progress i call l) (hdismissing : call.hud.state = .dismissing) :
    Progress i call.hudGone l := by
  have hstands : ∀ {awaiting uid shown reset}, call.Stands awaiting uid shown reset →
      call.hudGone.Stands awaiting uid shown reset := by
    intro awaiting uid shown reset h
    refine ⟨h.awaiting, h.uid, ?_, h.reset⟩
    rw [← h.shown, hdismissing]
    rfl
  cases h with
  | creating h => exact .creating (hstands h)
  | refused h => exact .refused (hstands h)
  | uploading h => exact .uploading (hstands h)
  | uploadFailed h => exact .uploadFailed (hstands h)
  | locating h => exact .locating (hstands h)
  | saving h => exact .saving (hstands h)
  | finished h => exact .finished (hstands h)

end Progress

/-! ### Runs -/

/-- A step moves the call its callback belongs to, and no other. -/
theorem step_progress (h : All (fun i call => Progress i call (answers i es)) w.calls)
    (hnew : ∀ i, w.calls.length ≤ i → answers i es = []) (hstep : step addphotobuttonimage w e = some w') :
    All (fun i call => Progress i call (answers i (es ++ [e]))) w'.calls := by
  have hsame : e.call = none → All (fun i call => Progress i call (answers i (es ++ [e]))) w.calls := by
    intro hnone
    refine h.mono fun i call hcall => ?_
    rwa [answers_concat_other (by simp [hnone])]
  have hmodify : ∀ {i : ℕ} {f : Call → Call}, e.call = some i →
      (∀ call, call.awaiting = (w.calls[i]?).bind (·.awaiting) → Progress i call (answers i es) →
        Progress i (f call) (answers i es ++ [e])) →
      All (fun i call => Progress i call (answers i (es ++ [e]))) (w.calls.modify i f) := by
    intro i f hcall hf
    refine h.modify_of (fun j call hne hentry hprogress => ?_) fun call hentry hprogress => ?_
    · rwa [answers_concat_other (by simp [hcall, hne.symm])]
    · rw [answers_concat_same hcall]
      exact hf call (by rw [hentry]; rfl) hprogress
  cases step_effect hstep with
  | edited | picked => exact hsame rfl
  | pressed =>
    refine (hsame rfl).concat ?_
    rw [answers_concat_other (by simp [Event.call]), hnew _ le_rfl]
    exact .creating ⟨rfl, rfl, rfl, rfl⟩
  | refused hawaiting =>
    refine hmodify rfl fun call hentry hprogress => ?_
    obtain ⟨hnone, h⟩ := hprogress.of_createUser (hentry.trans hawaiting)
    rw [hnone]
    exact .refused ⟨rfl, h.uid, rfl, h.reset⟩
  | accountCreated hawaiting =>
    refine hmodify rfl fun call hentry hprogress => ?_
    obtain ⟨hnone, h⟩ := hprogress.of_createUser (hentry.trans hawaiting)
    rw [hnone]
    exact .uploading ⟨rfl, rfl, h.shown, h.reset⟩
  | uploadFailed hawaiting =>
    refine hmodify rfl fun call hentry hprogress => ?_
    obtain ⟨uid, hanswers, h⟩ := hprogress.of_putData (hentry.trans hawaiting)
    rw [hanswers]
    exact .uploadFailed ⟨rfl, h.uid, h.shown, h.reset⟩
  | imageSaved hawaiting =>
    refine hmodify rfl fun call hentry hprogress => ?_
    obtain ⟨uid, hanswers, h⟩ := hprogress.of_putData (hentry.trans hawaiting)
    rw [hanswers]
    exact .locating ⟨rfl, h.uid, h.shown, h.reset⟩
  | located hawaiting =>
    refine hmodify rfl fun call hentry hprogress => ?_
    obtain ⟨uid, hanswers, h⟩ := hprogress.of_downloadURL (hentry.trans hawaiting)
    rw [hanswers]
    refine .saving ⟨?_, h.uid, rfl, rfl⟩
    simp [Call.located, Call.issue, h.uid]
  | saveFailed hawaiting | saved hawaiting =>
    refine hmodify rfl fun call hentry hprogress => ?_
    obtain ⟨result, hanswers, _, h⟩ := hprogress.of_setData (hentry.trans hawaiting)
    rw [hanswers]
    exact .finished ⟨rfl, h.uid, h.shown, h.reset⟩
  | hudGone hcall hdismissing =>
    refine (hsame rfl).modify fun call hentry hprogress => ?_
    rw [hcall] at hentry
    cases hentry
    exact hprogress.hudGone hdismissing

/-- A callback fires for a call that was made. -/
theorem call_lt_length (hstep : step addphotobuttonimage w e = some w') (hcall : e.call = some i) :
    i < w.calls.length := by
  have hlt : ∀ {j : ℕ} {request : Request}, w.awaiting j = some request → j < w.calls.length := by
    intro j request hawaiting
    obtain ⟨call, hentry, _⟩ := awaiting_eq_some.mp hawaiting
    exact (List.getElem?_eq_some_iff.mp hentry).1
  cases step_effect hstep with
  | edited | picked | pressed | hudGone => cases hcall
  | refused hawaiting | accountCreated hawaiting | uploadFailed hawaiting | imageSaved hawaiting | located hawaiting
  | saveFailed hawaiting | saved hawaiting =>
    obtain rfl : _ = i := Option.some.inj hcall
    exact hlt hawaiting

section runs
variable {accounts : List Account} {users : String → Option Infos}

theorem run_progress
    (hrun : run (step addphotobuttonimage) (opened addphotobuttonimage accounts users) es = some w) :
    All (fun i call => Progress i call (answers i es)) w.calls := by
  have hboth : (∀ i, w.calls.length ≤ i → answers i es = []) ∧
      All (fun i call => Progress i call (answers i es)) w.calls := by
    refine EventRun.run_induction (P := fun es w => (∀ i, w.calls.length ≤ i → answers i es = []) ∧
      All (fun i call => Progress i call (answers i es)) w.calls) ?_ ?_ hrun
    · exact ⟨fun _ _ => rfl, CallTable.all_nil⟩
    · intro es w e w' _ ⟨hnew, hprogress⟩ hstep
      refine ⟨fun i hi => ?_, step_progress hprogress hnew hstep⟩
      have hkept := calls_length_le hstep
      rw [answers_concat_other, hnew i (by omega)]
      intro hcall
      have hlt := call_lt_length hstep hcall
      omega
  exact hboth.2

end runs

/-! ### The texts -/

/-- The texts of the email, the user name and the password fields. -/
def ViewController.texts (screen : ViewController) : String × String × String :=
  (screen.emailTextField, screen.userNameTextField, screen.passwordTextField)

/-- No callback of call `i` changes the texts. -/
def TextsKept (addphotobuttonimage : UIImage) (start : World) (i : ℕ) (es : List Event) : Prop :=
  Guarded (step addphotobuttonimage) (fun _ s e => e.call = some i →
    ∀ s', step addphotobuttonimage s e = some s' → s'.screen.texts = s.screen.texts) start es

/-- If `downloadURL` fails for call `i`, the texts are empty by then. -/
def WipesNothing (addphotobuttonimage : UIImage) (start : World) (i : ℕ) (es : List Event) : Prop :=
  Guarded (step addphotobuttonimage) (fun _ s e => ∀ error, e = .downloadURLCallback i (.error error) →
    s.screen.texts = ("", "", "")) start es

/-- `downloadURL` alone changes the texts. -/
theorem step_texts (hcall : e.call = some i) (hstep : step addphotobuttonimage w e = some w') :
    (∃ result, e = .downloadURLCallback i result ∧ w'.screen.texts = ("", "", "")) ∨
      (∀ result, e ≠ .downloadURLCallback i result) ∧ w'.screen.texts = w.screen.texts := by
  cases step_effect hstep with
  | edited | picked | pressed | hudGone => cases hcall
  | @located j result hawaiting =>
    obtain rfl : j = i := Option.some.inj hcall
    exact .inl ⟨result, rfl, rfl⟩
  | refused | accountCreated | uploadFailed | imageSaved | saveFailed | saved => exact .inr ⟨nofun, rfl⟩

/-- The texts are kept exactly when `downloadURL` finds them empty. -/
theorem textsKept_iff {start : World} (hrun : run (step addphotobuttonimage) start es = some w) :
    TextsKept addphotobuttonimage start i es ↔ Guarded (step addphotobuttonimage)
      (fun _ s e => ∀ result, e = .downloadURLCallback i result → s.screen.texts = ("", "", "")) start es := by
  constructor
  · rintro hkept pre e post s rfl hpre result rfl
    obtain ⟨s', hstep, _⟩ := EventRun.step_of_run hpre hrun
    rcases step_texts rfl hstep with ⟨_, _, hwiped⟩ | ⟨hne, _⟩
    · rw [← hkept pre _ post s rfl hpre rfl s' hstep]
      exact hwiped
    · exact absurd rfl (hne result)
  · intro hempty pre e post s hes hpre hcall s' hstep
    rcases step_texts hcall hstep with ⟨result, he, hwiped⟩ | ⟨_, hsame⟩
    · rw [hwiped, hempty pre e post s hes hpre result he]
    · exact hsame

theorem wipesNothing_of {start : World} (h : ∀ error, .downloadURLCallback i (.error error) ∉ es) :
    WipesNothing addphotobuttonimage start i es := by
  rintro pre e post s rfl _ error rfl
  exact absurd (by simp) (h error)

/-- A call whose `downloadURL` has failed, if it has been answered, keeps the texts exactly if it wipes nothing. -/
theorem textsKept_iff_wipesNothing {start : World} (hrun : run (step addphotobuttonimage) start es = some w)
    (hfails : ∀ result, .downloadURLCallback i result ∈ es → ∃ error, result = .error error) :
    TextsKept addphotobuttonimage start i es ↔ WipesNothing addphotobuttonimage start i es := by
  rw [textsKept_iff hrun]
  constructor
  · exact fun hempty pre e post s hes hpre error he => hempty pre e post s hes hpre _ he
  · rintro hempty pre e post s rfl hpre result rfl
    obtain ⟨error, rfl⟩ := hfails result (by simp)
    exact hempty pre _ post s rfl hpre error rfl

/-! ### The press -/

/-- What a press owes once all its callbacks have fired: its HUD is dismissed or about to be, its closures have run
`resetAppearance` exactly if its document was stored, and if one of its callbacks failed none has changed the
texts. -/
structure Call.GivesBack (call : Call) (addphotobuttonimage : UIImage) (start : World) (i : ℕ) (es : List Event) :
    Prop where
  dismissed : call.hud.state ≠ .shown
  truthful : call.formReset = true ↔ .setDataCallback i none ∈ es
  kept : (∃ e ∈ es, e.call = some i ∧ e.failed = true) → TextsKept addphotobuttonimage start i es

/-- Of a press whose other callbacks succeeded: a failure has left the texts alone exactly if its `downloadURL` has
not failed over a text. -/
theorem kept_iff_wipesNothing {start : World} {uid : String} {result : Except SwiftError URL}
    (hrun : run (step addphotobuttonimage) start es = some w)
    (hmem : ∀ e : Event, e.call = some i → (e ∈ es ↔ e ∈ [.createUserCallback i (.ok uid), .putDataCallback i none,
      .downloadURLCallback i result, .setDataCallback i none])) :
    ((∃ e ∈ es, e.call = some i ∧ e.failed = true) → TextsKept addphotobuttonimage start i es) ↔
      WipesNothing addphotobuttonimage start i es := by
  have hresult : ∀ result', .downloadURLCallback i result' ∈ es → result' = result := by
    intro result' hdownload
    simpa using (hmem _ rfl).mp hdownload
  cases result with
  | ok url =>
    refine iff_of_true (fun hfailed => ?_) (wipesNothing_of fun error hdownload => ?_)
    · obtain ⟨e, hes, hcall, hfailed⟩ := hfailed
      have hanswer := (hmem e hcall).mp hes
      simp only [List.mem_cons, List.not_mem_nil, or_false] at hanswer
      rcases hanswer with rfl | rfl | rfl | rfl <;> cases hfailed
    · cases hresult _ hdownload
  | error error =>
    have hfailed : ∃ e ∈ es, e.call = some i ∧ e.failed = true :=
      ⟨.downloadURLCallback i (.error error), (hmem _ rfl).mpr (by simp), rfl, rfl⟩
    rw [imp_iff_right hfailed]
    exact textsKept_iff_wipesNothing hrun fun result hdownload => ⟨error, hresult result hdownload⟩

/-- A press whose callbacks have all fired pays its debt exactly when `putData` and `setData` did not fail, and
`downloadURL` did not fail over a form with a text in it. -/
theorem Progress.givesBack_iff {start : World} (h : Progress i call (answers i es)) (hended : call.awaiting = none)
    (hrun : run (step addphotobuttonimage) start es = some w) :
    call.GivesBack addphotobuttonimage start i es ↔
      (∀ error, .putDataCallback i (some error) ∉ es) ∧ (∀ error, .setDataCallback i (some error) ∉ es) ∧
        WipesNothing addphotobuttonimage start i es := by
  have hmem : ∀ e : Event, e.call = some i → (e ∈ es ↔ e ∈ answers i es) := fun _ hcall => (mem_answers hcall).symm
  have hput : ∀ error, .putDataCallback i error ∈ es ↔ .putDataCallback i error ∈ answers i es := fun _ => hmem _ rfl
  have hset : ∀ error, .setDataCallback i error ∈ es ↔ .setDataCallback i error ∈ answers i es := fun _ => hmem _ rfl
  generalize answers i es = l at h hmem hput hset
  cases h with
  | creating h | uploading h | locating h | saving h =>
    rw [h.awaiting] at hended
    cases hended
  | refused h =>
    -- `downloadURL` was never asked
    have hnone : ∀ result, .downloadURLCallback i result ∉ es := by
      intro result
      rw [hmem _ rfl]
      simp
    have hwipes : WipesNothing addphotobuttonimage start i es := wipesNothing_of fun _ => hnone _
    refine iff_of_true ⟨by simpa using h.shown, by simp [h.reset, hset], fun _ => ?_⟩
      ⟨by simp [hput], by simp [hset], hwipes⟩
    exact (textsKept_iff_wipesNothing hrun fun result hdownload => absurd hdownload (hnone result)).mpr hwipes
  | @uploadFailed _ error h =>
    -- the HUD stays
    refine iff_of_false (fun hgives => hgives.dismissed (by simpa using h.shown)) fun hcondition => ?_
    exact hcondition.1 error ((hput _).mpr (by simp))
  | @finished uid result error h =>
    cases error with
    | some error =>
      -- the form was reset before the document failed to be stored
      refine iff_of_false (fun hgives => ?_) fun hcondition => hcondition.2.1 error ((hset _).mpr (by simp))
      have hstored := hgives.truthful.mp h.reset
      simp [hset] at hstored
    | none =>
      have hrest : call.GivesBack addphotobuttonimage start i es ↔
          ((∃ e ∈ es, e.call = some i ∧ e.failed = true) → TextsKept addphotobuttonimage start i es) :=
        ⟨fun hgives => hgives.kept, fun hkept => ⟨by simpa using h.shown, by simp [h.reset, hset], hkept⟩⟩
      rw [hrest, and_iff_right (by simp [hput]), and_iff_right (by simp [hset])]
      exact kept_iff_wipesNothing hrun hmem

theorem run_calls_length_le {pre post : List Event} {start m : World}
    (hpre : run (step addphotobuttonimage) start pre = some m)
    (hrun : run (step addphotobuttonimage) start (pre ++ post) = some w) : m.calls.length ≤ w.calls.length :=
  EventRun.run_suffix (P := fun _ w => m.calls.length ≤ w.calls.length) hpre le_rfl
    (fun _ _ _ _ _ _ hle hstep => le_trans hle (calls_length_le hstep)) hrun

/-- **What a press gives back.** A press of the register button makes a call. Once all its callbacks have fired, its
HUD is dismissed, the form has been reset exactly if its document was stored, and a failure has left the texts alone,
if and only if neither its `putData` nor its `setData` failed and its `downloadURL`, if it failed, found the texts
empty. -/
theorem gives_back_iff {accounts : List Account} {users : String → Option Infos} {pre post : List Event} {m : World}
    (hpre : run (step addphotobuttonimage) (opened addphotobuttonimage accounts users) pre = some m)
    (hrun : run (step addphotobuttonimage) (opened addphotobuttonimage accounts users)
      (pre ++ .registerButtonClicked :: post) = some w) :
    ∃ call, w.calls[m.calls.length]? = some call ∧ (call.awaiting = none →
      (call.GivesBack addphotobuttonimage (opened addphotobuttonimage accounts users) m.calls.length
          (pre ++ .registerButtonClicked :: post) ↔
        (∀ error, .putDataCallback m.calls.length (some error) ∉ pre ++ .registerButtonClicked :: post) ∧
        (∀ error, .setDataCallback m.calls.length (some error) ∉ pre ++ .registerButtonClicked :: post) ∧
        WipesNothing addphotobuttonimage (opened addphotobuttonimage accounts users) m.calls.length
          (pre ++ .registerButtonClicked :: post))) := by
  have hmade : m.calls.length < w.calls.length := by
    obtain ⟨m', hstep, _⟩ := EventRun.step_of_run hpre hrun
    have hpressed := EventRun.run_concat_eq_some.mpr ⟨m, hpre, hstep⟩
    rw [List.append_cons] at hrun
    have hle := run_calls_length_le hpressed hrun
    cases step_effect hstep with
    | pressed => simpa [World.registerButtonClicked, Nat.succ_le_iff] using hle
  exact ⟨_, List.getElem?_eq_getElem hmade, fun hended =>
    (run_progress hrun _ _ (List.getElem?_eq_getElem hmade)).givesBack_iff hended hrun⟩

end

/-- A refused registration gives the screen back. -/
theorem refused_gives_back : ∃ w call, run (step ⟨"add", none⟩) (opened ⟨"add", none⟩ [] fun _ => none)
      (filledForm ++ .registerButtonClicked :: [.createUserCallback 0 (.error ⟨"email in use"⟩)]) = some w ∧
    w.calls[0]? = some call ∧ call.GivesBack ⟨"add", none⟩ (opened ⟨"add", none⟩ [] fun _ => none) 0
      (filledForm ++ .registerButtonClicked :: [.createUserCallback 0 (.error ⟨"email in use"⟩)]) := by
  have hpre : run (step ⟨"add", none⟩) (opened ⟨"add", none⟩ [] fun _ => none) filledForm = some _ := rfl
  have hrun : run (step ⟨"add", none⟩) (opened ⟨"add", none⟩ [] fun _ => none)
    (filledForm ++ .registerButtonClicked :: [.createUserCallback 0 (.error ⟨"email in use"⟩)]) = some _ := rfl
  obtain ⟨call, hcall, hgives⟩ := gives_back_iff hpre hrun
  have hended : call.awaiting = none := by
    obtain rfl : _ = call := Option.some.inj hcall
    rfl
  refine ⟨_, call, hrun, hcall, (hgives hended).mpr ⟨by simp [filledForm], by simp [filledForm], ?_⟩⟩
  exact EventRun.guarded_of_forall (by simp [filledForm])

/-- A press whose `putData` fails never gets its HUD dismissed. -/
theorem failed_upload_gives_nothing_back : ¬ ∀ es w (i : ℕ) (call : Call),
    run (step ⟨"add", none⟩) (opened ⟨"add", none⟩ [] fun _ => none) es = some w → w.calls[i]? = some call →
      call.awaiting = none → call.GivesBack ⟨"add", none⟩ (opened ⟨"add", none⟩ [] fun _ => none) i es := by
  intro h
  have hgives := h (filledForm ++ .registerButtonClicked ::
    [.createUserCallback 0 (.ok "uid0"), .putDataCallback 0 (some ⟨"offline"⟩)]) _ 0 _ rfl rfl rfl
  exact hgives.dismissed rfl

end CloneProjects.Insta
