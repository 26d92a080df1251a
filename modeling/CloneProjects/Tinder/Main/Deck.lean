import CloneProjects.Tinder.Main.Screen

/-!
# What the deck shows

The deck is what the query callbacks have brought since it was last cleared (`Deck`). When everything issued
has succeeded and nothing is pending, the query issued last has answered since then (`Refreshed`), so the deck
is its result exactly when no other query has brought a document since.
-/

namespace CloneProjects.Tinder.Main

open CallTable (All)
open EventRun (run since)

/-- The entries that clear the deck. -/
def Event.clears : Event → Bool
  | .refreshPressed | .settingsSaved => true
  | _ => false

/-- The events since the deck was last cleared. -/
def sinceCleared (es : List Event) : List Event := since Event.clears es

/-- The answer an event brings to the query `n`. -/
def Event.answer (n : ℕ) : Event → Option (Except SwiftError (List Infos))
  | .queryCallback j response => if j = n then some response else none
  | _ => none

/-- The answers to the query `n`. -/
def answers (n : ℕ) (es : List Event) : List (Except SwiftError (List Infos)) := es.filterMap (Event.answer n)

/-- The cards of a query's result. -/
def cards (accepts : String → Bool) (query : ℕ) (documents : List Infos) : List Subview :=
  documents.map fun userData => ⟨cardOf accepts userData, query⟩

/-- The cards an event brings. -/
def Event.brings (accepts : String → Bool) : Event → List Subview
  | .queryCallback j (.ok documents) => cards accepts j documents
  | _ => []

/-- A request that succeeds: the fetch finds a user with a search range, the query brings documents. -/
def Event.Succeeds : Event → Prop
  | .fetchCallback _ response => ∃ infos, response = .ok (some infos) ∧
      (infos.int "MinimumAge").isSome ∧ (infos.int "MaximumAge").isSome
  | .queryCallback _ response => ∃ documents, response = .ok documents
  | _ => True

/-- The loaded user has a search range. -/
def World.HasRange (w : World) : Prop :=
  (w.screen.currentUser.bind (·.searchMinAge)).isSome ∧ (w.screen.currentUser.bind (·.searchMaxAge)).isSome

def World.Fetching (w : World) : Prop := ∃ fetch ∈ w.fetches, fetch.pending = true

/-- A query has been answered once, or is pending and has not been answered. -/
def Query.Answered (es : List Event) (n : ℕ) (query : Query) : Prop :=
  if query.pending then answers n es = [] else (answers n es).length = 1

/-- The deck holds what came since it was cleared, and the queries have had the answers of the history. -/
structure Deck (accepts : String → Bool) (es : List Event) (w : World) : Prop where
  shown : w.screen.profileMainView = (sinceCleared es).flatMap (Event.brings accepts)
  answered : All (fun n query => query.Answered es n) w.queries
  unasked : ∀ n, w.queries.length ≤ n → answers n es = []

/-- In a run of successes: a fetch is under way, or the user has a search range and the query issued last is
pending or has been answered since the deck was cleared. -/
def Refreshed (es : List Event) (w : World) : Prop :=
  w.Fetching ∨ w.HasRange ∧ ∃ n, w.queries.length = n + 1 ∧
    ((∃ query, w.queries[n]? = some query ∧ query.pending = true) ∨
      ∃ documents, .queryCallback n (.ok documents) ∈ sinceCleared es)

section
variable {accepts : String → Bool} {uid : String} {es : List Event} {w w' : World} {e : Event}

theorem answers_concat (n : ℕ) (es : List Event) (e : Event) :
    answers n (es ++ [e]) = answers n es ++ (e.answer n).toList := by
  cases h : e.answer n <;> simp [answers, h]

@[simp] theorem getByUserInfoFromFirestore_fetches (w : World) :
    w.getByUserInfoFromFirestore.fetches = w.fetches := by
  unfold World.getByUserInfoFromFirestore
  split <;> rfl

@[simp] theorem getByUserInfoFromFirestore_uid (w : World) : w.getByUserInfoFromFirestore.uid = w.uid := by
  unfold World.getByUserInfoFromFirestore
  split <;> rfl

/-! ### The deck and the answers -/

/-- Issuing a query adds one that has not been answered. -/
theorem Deck.issue (h : Deck accepts es w) : Deck accepts es w.getByUserInfoFromFirestore := by
  rcases getByUserInfoFromFirestore_cases w with ⟨_, _, _, _, heq⟩ | ⟨_, heq⟩
  · rw [heq]
    refine ⟨h.shown, h.answered.concat (h.unasked _ le_rfl), fun n hn => h.unasked n ?_⟩
    simp only [List.length_append, List.length_singleton] at hn
    omega
  · rw [heq]
    exact h

/-- An event that answers no query. -/
theorem Deck.silent (h : Deck accepts es w) (hanswer : ∀ n, e.answer n = none)
    (hshown : w'.screen.profileMainView = (sinceCleared (es ++ [e])).flatMap (Event.brings accepts))
    (hqueries : w'.queries = w.queries) : Deck accepts (es ++ [e]) w' := by
  have hsame : ∀ n, answers n (es ++ [e]) = answers n es := by
    intro n
    rw [answers_concat, hanswer]
    simp
  refine ⟨hshown, ?_, fun n hn => ?_⟩
  · rw [hqueries]
    refine h.answered.mono fun n query hquery => ?_
    rwa [Query.Answered, hsame]
  · rw [hsame]
    exact h.unasked n (hqueries ▸ hn)

theorem step_deck (hstep : step accepts w e = some w') (h : Deck accepts es w) : Deck accepts (es ++ [e]) w' := by
  cases e with
  | refreshPressed =>
    rw [step_refreshPressed hstep]
    have hcleared : Deck accepts (es ++ [.refreshPressed]) { w with screen := w.screen.removeSubviews } :=
      h.silent (fun _ => rfl) (by simp [sinceCleared, Event.clears, MainViewController.removeSubviews]) rfl
    exact hcleared.issue
  | settingsSaved =>
    simp only [step, Option.some.injEq] at hstep
    subst hstep
    exact h.silent (fun _ => rfl)
      (by simp [sinceCleared, Event.clears, World.getByCurrentUser, MainViewController.removeSubviews]) rfl
  | fetchCallback i response =>
    rw [step_fetchCallback hstep, World.userFetched]
    split
    · refine h.silent (fun _ => rfl) ?_ rfl
      simpa [sinceCleared, Event.clears, Event.brings] using h.shown
    · refine Deck.issue (h.silent (fun _ => rfl) ?_ rfl)
      simpa [sinceCleared, Event.clears, Event.brings] using h.shown
  | queryCallback j response =>
    obtain ⟨⟨query, hquery, hpending⟩, rfl⟩ := step_queryCallback hstep
    have hlt : j < w.queries.length := (List.getElem?_eq_some_iff.mp hquery).1
    have hother : ∀ n, n ≠ j → answers n (es ++ [.queryCallback j response]) = answers n es := by
      intro n hn
      rw [answers_concat, Event.answer, if_neg (Ne.symm hn)]
      simp
    refine ⟨?_, ?_, fun n hn => ?_⟩
    · rw [profilesFetched_profileMainView, h.shown]
      cases response <;> simp [sinceCleared, Event.clears, Event.brings, cards]
    · refine h.answered.modify_of (fun n q hn _ hq => ?_) fun q hq hanswered => ?_
      · rwa [Query.Answered, hother n hn]
      · rw [hquery] at hq
        cases hq
        rw [Query.Answered, if_pos hpending] at hanswered
        simp [Query.Answered, answers_concat, hanswered, Event.answer]
    · simp only [List.length_modify] at hn
      rw [hother n (by omega)]
      exact h.unasked n hn

/-! ### The query issued last -/

/-- Once the user has a search range, issuing makes a pending query the last one. -/
theorem Refreshed.issue (h : w.HasRange) : Refreshed es w.getByUserInfoFromFirestore := by
  rcases getByUserInfoFromFirestore_cases w with ⟨minAge, maxAge, _, _, heq⟩ | ⟨hnone | hnone, _⟩
  · rw [heq]
    refine .inr ⟨h, w.queries.length, by simp, .inl ⟨⟨minAge, maxAge, true, true⟩, by simp, rfl⟩⟩
  · rw [World.HasRange, hnone] at h
    cases h.1
  · rw [World.HasRange, hnone] at h
    cases h.2

theorem step_refreshed (hstep : step accepts w e = some w') (hsucceeds : e.Succeeds) (huid : w.uid = some uid)
    (h : Refreshed es w) : Refreshed (es ++ [e]) w' := by
  cases e with
  | refreshPressed =>
    rw [step_refreshPressed hstep]
    rcases h with ⟨fetch, hmem, hpending⟩ | ⟨hrange, _⟩
    · exact .inl ⟨fetch, by simpa [World.pressRefreshButton] using hmem, hpending⟩
    · exact Refreshed.issue hrange
  | settingsSaved =>
    simp only [step, Option.some.injEq] at hstep
    subst hstep
    exact .inl ⟨⟨true⟩, by simp [World.getByCurrentUser, huid], rfl⟩
  | fetchCallback i response =>
    obtain ⟨infos, rfl, hmin, hmax⟩ := hsucceeds
    rw [step_fetchCallback hstep]
    exact Refreshed.issue ⟨hmin, hmax⟩
  | queryCallback j response =>
    obtain ⟨documents, rfl⟩ := hsucceeds
    obtain ⟨_, rfl⟩ := step_queryCallback hstep
    refine h.imp id ?_
    rintro ⟨hrange, n, hlength, hlast⟩
    have hkept : World.HasRange { w with
        queries := w.queries.modify j fun query => { query with pending := false, hudShown := false }
        screen := MainViewController.profilesFetched accepts j w.screen (.ok documents) } := by
      rw [World.HasRange, profilesFetched_currentUser]
      exact hrange
    refine ⟨hkept, n, by simpa using hlength, ?_⟩
    by_cases hj : j = n
    · subst hj
      exact .inr ⟨documents, by simp [sinceCleared, Event.clears]⟩
    · refine hlast.imp ?_ ?_
      · rintro ⟨query, hquery, hpending⟩
        exact ⟨query, CallTable.getElem?_modify_eq_some.mpr (.inl ⟨Ne.symm hj, hquery⟩), hpending⟩
      · rintro ⟨documents', hmem⟩
        exact ⟨documents', by simpa [sinceCleared, Event.clears] using Or.inl hmem⟩

/-! ### Runs -/

theorem run_deck (hrun : run (step accepts) (viewDidLoad (some uid)) es = some w) : Deck accepts es w := by
  refine EventRun.run_induction (P := Deck accepts) ?_ (fun _ _ _ _ _ h hstep => step_deck hstep h) hrun
  exact ⟨rfl, CallTable.all_nil, fun _ _ => rfl⟩

theorem run_uid (hrun : run (step accepts) (viewDidLoad (some uid)) es = some w) : w.uid = some uid := by
  refine EventRun.run_invariant (P := fun w => w.uid = some uid) (fun s e s' h hstep => ?_) rfl hrun
  cases e with
  | refreshPressed =>
    rw [step_refreshPressed hstep]
    simpa [World.pressRefreshButton] using h
  | settingsSaved =>
    simp only [step, Option.some.injEq] at hstep
    subst hstep
    exact h
  | fetchCallback i response =>
    rw [step_fetchCallback hstep, World.userFetched]
    split
    · exact h
    · simpa using h
  | queryCallback j response =>
    obtain ⟨_, rfl⟩ := step_queryCallback hstep
    exact h

theorem run_refreshed (hrun : run (step accepts) (viewDidLoad (some uid)) es = some w)
    (hsucceeds : ∀ e ∈ es, e.Succeeds) : Refreshed es w := by
  refine EventRun.run_induction (P := fun es w => (∀ e ∈ es, e.Succeeds) → Refreshed es w) ?_ ?_ hrun hsucceeds
  · exact fun _ => .inl ⟨⟨true⟩, by simp [viewDidLoad, World.getByCurrentUser], rfl⟩
  · intro es w e w' hes h hstep hsucceeds
    exact step_refreshed hstep (hsucceeds e (by simp)) (run_uid hes) (h fun x hx => hsucceeds x (by simp [hx]))

/-- Events that bring cards of the query `n` only bring what answers it. -/
theorem flatMap_brings {n : ℕ} {es : List Event}
    (hothers : ∀ j documents, .queryCallback j (.ok documents) ∈ es → j ≠ n → documents = []) :
    es.flatMap (Event.brings accepts) = (answers n es).flatMap fun response =>
      match response with
      | .ok documents => cards accepts n documents
      | .error _ => [] := by
  induction es with
  | nil => rfl
  | cons e es ih =>
    have htail := ih fun j documents hmem => hothers j documents (List.mem_cons_of_mem _ hmem)
    have hanswers : answers n (e :: es) = (e.answer n).toList ++ answers n es := by
      cases h : e.answer n <;> simp [answers, h]
    rw [List.flatMap_cons, hanswers, List.flatMap_append, htail]
    congr 1
    cases e with
    | queryCallback j response =>
      by_cases hj : j = n
      · subst hj
        cases response <;> simp [Event.answer, Event.brings]
      · cases response with
        | error error => simp [Event.answer, Event.brings, hj]
        | ok documents =>
          rw [hothers j documents (by simp) hj]
          simp [Event.answer, Event.brings, cards, hj]
    | _ => rfl

/-- A query that is not pending and has been answered since the deck was cleared has had no other answer. -/
theorem Deck.answers_eq {n : ℕ} {query : Query} {response : Except SwiftError (List Infos)}
    (h : Deck accepts es w) (hquery : w.queries[n]? = some query) (hpending : query.pending = false)
    (hmem : .queryCallback n response ∈ sinceCleared es) :
    answers n (sinceCleared es) = [response] ∧ answers n es = [response] := by
  have honce : query.Answered es n := h.answered n query hquery
  rw [Query.Answered, if_neg (by simp [hpending])] at honce
  obtain ⟨answer, hanswer⟩ := List.length_eq_one_iff.mp honce
  obtain ⟨pre, hpre⟩ := EventRun.since_suffix Event.clears es
  have hsince : response ∈ answers n (sinceCleared es) :=
    List.mem_filterMap.mpr ⟨_, hmem, by simp [Event.answer]⟩
  have hsplit : answers n pre ++ answers n (sinceCleared es) = [answer] := by
    rw [← hanswer, answers, answers, ← List.filterMap_append]
    exact congrArg _ hpre.symm
  rcases List.append_eq_singleton_iff.mp hsplit with ⟨_, heq⟩ | ⟨_, heq⟩
  · rw [heq, List.mem_singleton] at hsince
    exact ⟨by rw [heq, hsince], by rw [hanswer, hsince]⟩
  · rw [heq] at hsince
    cases hsince

/-- The deck is the result of the query `n`, if that is its only answer, exactly when the other queries have
brought nothing. -/
theorem Deck.shown_iff {n : ℕ} {documents : List Infos} (h : Deck accepts es w)
    (hanswer : answers n (sinceCleared es) = [.ok documents]) :
    w.screen.profileMainView = cards accepts n documents ↔
      ∀ j documents', .queryCallback j (.ok documents') ∈ sinceCleared es → j ≠ n → documents' = [] := by
  rw [h.shown]
  constructor
  · intro heq j documents' hj hne
    rw [List.eq_nil_iff_forall_not_mem]
    intro userData huser
    have hcard : ⟨cardOf accepts userData, j⟩ ∈ cards accepts n documents := by
      rw [← heq, List.mem_flatMap]
      exact ⟨_, hj, List.mem_map.mpr ⟨userData, huser, rfl⟩⟩
    obtain ⟨_, _, hquery⟩ := List.mem_map.mp hcard
    exact hne (Subview.mk.inj hquery).2.symm
  · intro hothers
    rw [flatMap_brings hothers, hanswer]
    simp

/-- **What the deck shows.** In a run in which everything issued has succeeded and nothing is pending, some
query was issued last and has been answered once; the deck is its result, every document once and in result
order and no card of another query, exactly when no other query has brought a document since the deck was
last cleared. -/
theorem deck_eq_last_result_iff (hrun : run (step accepts) (viewDidLoad (some uid)) es = some w)
    (hsucceeds : ∀ e ∈ es, e.Succeeds) (hfetches : ∀ fetch ∈ w.fetches, fetch.pending = false)
    (hqueries : ∀ query ∈ w.queries, query.pending = false) :
    ∃ n documents, w.queries.length = n + 1 ∧ answers n es = [.ok documents] ∧
      (w.screen.profileMainView = cards accepts n documents ↔
        ∀ j documents', .queryCallback j (.ok documents') ∈ sinceCleared es → j ≠ n → documents' = []) := by
  have hdeck := run_deck hrun
  rcases run_refreshed hrun hsucceeds with ⟨fetch, hmem, hpending⟩ | ⟨_, n, hlength, hlast⟩
  · rw [hfetches fetch hmem] at hpending
    cases hpending
  obtain ⟨documents, hmem⟩ := hlast.resolve_left fun ⟨query, hquery, hpending⟩ => by
    rw [hqueries query (List.mem_of_getElem? hquery)] at hpending
    cases hpending
  obtain ⟨query, hquery⟩ : ∃ query, w.queries[n]? = some query := ⟨_, List.getElem?_eq_getElem (by omega)⟩
  obtain ⟨hsince, hanswer⟩ := hdeck.answers_eq hquery (hqueries query (List.mem_of_getElem? hquery)) hmem
  exact ⟨n, documents, hlength, hanswer, hdeck.shown_iff hsince⟩

end

/-- A profile with a search range, and one found by the queries. -/
def searcher : Infos := dictionary [
  ("UserID", .string "uid"), ("MinimumAge", .integer 18), ("MaximumAge", .integer 40)]

def found : Infos := dictionary [("UserID", .string "uid1"), ("Age", .integer 30)]

/-- The first load: the user is fetched and the query answered. -/
def firstLoad : List Event := [.fetchCallback 0 (.ok (some searcher)), .queryCallback 0 (.ok [found])]

theorem deck_of_firstLoad : ∃ w, run (step fun _ => true) (viewDidLoad (some "uid")) firstLoad = some w ∧
    w.screen.profileMainView = cards (fun _ => true) 0 [found] := by
  have hrun : run (step fun _ => true) (viewDidLoad (some "uid")) firstLoad = some _ := rfl
  have hsucceeds : ∀ e ∈ firstLoad, e.Succeeds := by
    simp only [firstLoad, List.mem_cons, List.not_mem_nil, or_false, forall_eq_or_imp, forall_eq]
    exact ⟨⟨searcher, rfl, rfl, rfl⟩, ⟨_, rfl⟩⟩
  obtain ⟨n, documents, hlength, hanswer, hdeck⟩ := deck_eq_last_result_iff hrun hsucceeds
    (fun fetch hmem => by rw [List.mem_singleton.mp hmem]) (fun query hmem => by rw [List.mem_singleton.mp hmem])
  obtain rfl : 0 = n := Nat.succ.inj hlength
  have hone : [(.ok [found] : Except SwiftError (List Infos))] = [.ok documents] := hanswer
  obtain rfl : [found] = documents := Except.ok.inj (List.singleton_inj.mp hone)
  refine ⟨_, hrun, hdeck.mpr fun j documents' hmem hne => ?_⟩
  have hj : j = 0 := by simp_all [sinceCleared, EventRun.since, firstLoad, Event.clears]
  exact absurd hj hne

/-- Settings are saved and Refresh is pressed while the user is fetched again: both queries fill the deck. -/
def refreshedTwice : List Event := firstLoad ++
  [.settingsSaved, .refreshPressed, .fetchCallback 1 (.ok (some searcher)), .queryCallback 1 (.ok [found]),
    .queryCallback 2 (.ok [found])]

theorem deck_shows_twice : ¬ ∀ es w, run (step fun _ => true) (viewDidLoad (some "uid")) es = some w →
    (∀ e ∈ es, e.Succeeds) →
    (∀ n documents, .queryCallback n (.ok documents) ∈ es → (documents.map (·.string "UserID")).Nodup) →
    (∀ fetch ∈ w.fetches, fetch.pending = false) →
    (∀ query ∈ w.queries, query.pending = false) →
    ∃ n documents, w.queries.length = n + 1 ∧ answers n es = [.ok documents] ∧
      w.screen.profileMainView = cards (fun _ => true) n documents := by
  intro h
  have hrun : run (step fun _ => true) (viewDidLoad (some "uid")) refreshedTwice = some _ := rfl
  have hsucceeds : ∀ e ∈ refreshedTwice, e.Succeeds := by
    simp only [refreshedTwice, firstLoad, List.cons_append, List.nil_append, List.mem_cons, List.not_mem_nil,
      or_false, forall_eq_or_imp, forall_eq]
    exact ⟨⟨searcher, rfl, rfl, rfl⟩, ⟨_, rfl⟩, trivial, trivial, ⟨searcher, rfl, rfl, rfl⟩, ⟨_, rfl⟩, ⟨_, rfl⟩⟩
  have hdistinct : ∀ n documents, .queryCallback n (.ok documents) ∈ refreshedTwice →
      (documents.map (·.string "UserID")).Nodup := by
    intro n documents hmem
    have hfound : documents = [found] := by
      simp only [refreshedTwice, firstLoad, List.cons_append, List.nil_append, List.mem_cons, List.not_mem_nil,
        or_false, reduceCtorEq, false_or, Event.queryCallback.injEq, Except.ok.injEq] at hmem
      rcases hmem with ⟨_, rfl⟩ | ⟨_, rfl⟩ | ⟨_, rfl⟩ <;> rfl
    rw [hfound]
    exact List.nodup_cons.mpr ⟨List.not_mem_nil, List.nodup_nil⟩
  obtain ⟨n, documents, hlength, hanswer, hdeck⟩ :=
    h refreshedTwice _ hrun hsucceeds hdistinct (by decide) (by decide)
  obtain rfl : 2 = n := Nat.succ.inj hlength
  have hone : [(.ok [found] : Except SwiftError (List Infos))] = [.ok documents] := hanswer
  obtain rfl : [found] = documents := Except.ok.inj (List.singleton_inj.mp hone)
  have htwo : 2 = 1 := congrArg List.length hdeck
  cases htwo

end CloneProjects.Tinder.Main
